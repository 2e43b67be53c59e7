import KernelDispatch.Json.Basic
import KernelDispatch.Bytes

/-!
# Compact JSON

The compact form has no blanks. In strings a quote, a backslash and control characters are
escaped, the latter by a short escape where there is one; every other character is written as
itself.
-/

namespace KernelDispatch

def TextUnit.numbered (unit : Nat) : List Char :=
  ['\\', 'u', hexDigit (unit / 4096 % 16), hexDigit (unit / 256 % 16),
    hexDigit (unit / 16 % 16), hexDigit (unit % 16)]

def TextUnit.write : TextUnit → List Char
  | .escaped unit => numbered unit
  | .char c =>
    match c with
    | '"' => ['\\', '"']
    | '\\' => ['\\', '\\']
    | '\n' => ['\\', 'n']
    | '\r' => ['\\', 'r']
    | '\t' => ['\\', 't']
    | '\x08' => ['\\', 'b']
    | '\x0c' => ['\\', 'f']
    | c => if c.toNat < 32 then numbered c.toNat else [c]

namespace Json

def quote (units : List TextUnit) : List Char :=
  '"' :: (units.flatMap TextUnit.write ++ ['"'])

def integerText : Int → List Char
  | .ofNat n => Nat.toDigits 10 n
  | .negSucc n => '-' :: Nat.toDigits 10 (n + 1)

mutual

def write : Json → List Char
  | .null => ['n', 'u', 'l', 'l']
  | .bool true => ['t', 'r', 'u', 'e']
  | .bool false => ['f', 'a', 'l', 's', 'e']
  | .integer n => integerText n
  | .real literal => literal.toList
  | .string units => quote units
  | .array [] => ['[', ']']
  | .array (item :: items) => '[' :: (item.write ++ writeItems items)
  | .object [] => ['\x7b', '\x7d']
  | .object ((name, value) :: members) =>
    '\x7b' :: (quote name ++ ':' :: (value.write ++ writeMembers members))

def writeItems : List Json → List Char
  | [] => [']']
  | item :: items => ',' :: (item.write ++ writeItems items)

def writeMembers : List (List TextUnit × Json) → List Char
  | [] => ['\x7d']
  | (name, value) :: members => ',' :: (quote name ++ ':' :: (value.write ++ writeMembers members))

end

def compact (j : Json) : String := String.ofList j.write

end Json

end KernelDispatch
