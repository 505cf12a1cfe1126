import Bulletin.Text.Lossy
import Bulletin.Text.Split

/-!
# Queries as fields

A query is a run of fields such as `period=1&x=2`. In names and values a plus stands for a blank,
and two hexadecimal digits behind a percent sign for a byte:

    fields "a=1&b=%2B+c&a" = [("a", "1"), ("b", "+ c"), ("a", "")]

A percent sign without two digits stands for itself.
-/

namespace Bulletin.Http

def hexValue? (b : UInt8) : Option UInt8 :=
  if 0x30 ≤ b && b ≤ 0x39 then some (b - 0x30)
  else if 0x61 ≤ b && b ≤ 0x66 then some (b - 0x57)
  else if 0x41 ≤ b && b ≤ 0x46 then some (b - 0x37)
  else none

/-- The bytes that escaped bytes stand for. -/
def unescape : List UInt8 → List UInt8
  | [] => []
  | b :: rest =>
    if b = 0x2B then 0x20 :: unescape rest
    else if b = 0x25 then
      match rest with
      | h :: l :: rest' =>
        match hexValue? h, hexValue? l with
        | some h, some l => (h * 16 + l) :: unescape rest'
        | _, _ => b :: unescape (h :: l :: rest')
      | rest => b :: unescape rest
    else b :: unescape rest

/-- The text that a part of a field stands for. -/
def unescapeText (cs : List Char) : String :=
  Text.decode (unescape (Text.encode (String.ofList cs)))

/-- A name and a value. -/
def field (cs : List Char) : String × String :=
  match Text.cutFirst? '=' cs with
  | some (name, value) => (unescapeText name, unescapeText value)
  | none => (unescapeText cs, "")

def fields (query : String) : List (String × String) :=
  ((Text.cutAll '&' query.toList).filter (!·.isEmpty)).map field

def lastValue? (name : String) (fields : List (String × String)) : Option String :=
  fields.reverse.lookup name

end Bulletin.Http
