import OcppClient.Validation
import OcppClient.Lib.Delimited

/-!
# A violation's path is read back

A segment after the first starts with a mark of its own, `.` or `[`, and a name holds no mark, so a
name ends where the next segment starts (`isCode_code`). The first segment has no `.` before it
unless the path was truncated; what it starts with tells a truncated path, the payload itself, a
name and an index apart (`markOf_pathText`).
-/

namespace OcppClient

open Delimited

/-- A character that is not one of the path's own marks. -/
def NameChar (c : Char) : Prop :=
  c ∉ ['.', '[', ']', '<']

instance : DecidablePred NameChar := fun c => inferInstanceAs (Decidable (c ∉ _))

/-- An index, or a name that is not empty and holds no mark. -/
def PathSegment.Plain : PathSegment → Prop
  | .field name => name ≠ "" ∧ ∀ c ∈ name.toList, NameChar c
  | .index _ => True

/-- A segment as it stands behind another one. -/
def PathSegment.code : PathSegment → List Char
  | .field name => '.' :: name.toList
  | .index i => '[' :: (Nat.toDigits 10 i ++ [']'])

/-! ## Reading a segment -/

theorem toDigits_inj {i j : ℕ} (h : Nat.toDigits 10 i = Nat.toDigits 10 j) : i = j := by
  have hval := congrArg (fun digits => Nat.ofDigitChars 10 digits 0) h
  simpa using hval

theorem PathSegment.code_inj : ∀ {s t : PathSegment} {x y : List Char}, s.Plain → t.Plain →
    Stops NameChar x → Stops NameChar y → s.code ++ x = t.code ++ y → s = t ∧ x = y
  | .field name, .field name', x, y, hs, ht, hx, hy, h => by
    simp only [code, List.cons_append, List.cons.injEq, true_and] at h
    obtain ⟨hname, hxy⟩ := run_inj hs.2 ht.2 hx hy h
    exact ⟨by rw [String.toList_injective hname], hxy⟩
  | .field _, .index _, _, _, _, _, _, _, h => by simp [code] at h
  | .index _, .field _, _, _, _, _, _, _, h => by simp [code] at h
  | .index i, .index j, x, y, _, _, _, _, h => by
    simp only [code, List.cons_append, List.append_assoc, List.nil_append, List.cons.injEq,
      true_and] at h
    have hdigit : ∀ n, ∀ c ∈ Nat.toDigits 10 n, c.isDigit = true :=
      fun n c hc => Nat.isDigit_of_mem_toDigits (by omega) (by omega) hc
    -- the bracket is no digit, so it stops the number
    obtain ⟨hij, hxy⟩ := run_inj (hdigit i) (hdigit j) (stops_cons.2 (by decide))
      (stops_cons.2 (by decide)) h
    exact ⟨by rw [toDigits_inj hij], by simpa using hxy⟩

theorem isCode_code : IsCode PathSegment.Plain NameChar PathSegment.code where
  stops {s} _ := by
    cases s with
    | field name => exact ⟨by simp [PathSegment.code], stops_cons.2 (by decide)⟩
    | index i => exact ⟨by simp [PathSegment.code], stops_cons.2 (by decide)⟩
  inj := PathSegment.code_inj

/-! ## The text of a path -/

/-- The characters of the path in the details. -/
def pathText : Bool → List PathSegment → List Char
  | true, path => '.' :: '.' :: '.' :: path.flatMap PathSegment.code
  | false, [] => '<' :: "payload>".toList
  | false, .field name :: path => name.toList ++ path.flatMap PathSegment.code
  | false, .index i :: path => PathSegment.code (.index i) ++ path.flatMap PathSegment.code

theorem toList_pushSegment {truncated : Bool} {position : ℕ} (h : 0 < position ∨ truncated = true)
    (path : String) (s : PathSegment) :
    (pushSegment truncated path (s, position)).toList = path.toList ++ s.code := by
  cases s with
  | field name => simp [pushSegment, PathSegment.code, h]
  | index i => simp [pushSegment, PathSegment.code, toString]

/-- The loop writes the codes one after another, from the second round on and, in a truncated path,
from the first. -/
theorem toList_foldl_pushSegment {truncated : Bool} : ∀ (l : List PathSegment) {position : ℕ}
    (path : String), 0 < position ∨ truncated = true →
      ((l.zipIdx position).foldl (pushSegment truncated) path).toList
        = path.toList ++ l.flatMap PathSegment.code
  | [], _, _, _ => by simp
  | s :: l, position, path, h => by
    rw [List.zipIdx_cons, List.foldl_cons, toList_foldl_pushSegment l _ (.inl (by omega)),
      toList_pushSegment h, List.flatMap_cons, List.append_assoc]

theorem toList_detailsPath (e : ValidationError) :
    (detailsPath e).toList = pathText e.pathTruncated e.path := by
  obtain ⟨path, truncated, cls, text⟩ := e
  cases truncated with
  | true =>
    simp only [detailsPath, Bool.not_true, Bool.and_false]
    rw [toList_foldl_pushSegment path _ (.inr rfl)]
    rfl
  | false =>
    match path with
    | [] => simp [detailsPath, pathText]
    | .field name :: path =>
      simp only [detailsPath, List.zipIdx_cons, List.foldl_cons]
      rw [toList_foldl_pushSegment path _ (.inl (by omega))]
      simp [pushSegment, pathText]
    | .index i :: path =>
      simp only [detailsPath, List.zipIdx_cons, List.foldl_cons]
      rw [toList_foldl_pushSegment path _ (.inl (by omega))]
      simp [pushSegment, pathText, PathSegment.code, toString]

/-! ## Reading the start -/

/-- The mark a path starts with; a name is none. -/
def mark : Bool → List PathSegment → Option Char
  | true, _ => some '.'
  | false, [] => some '<'
  | false, .field _ :: _ => none
  | false, .index _ :: _ => some '['

def markOf (text : List Char) : Option Char :=
  text.head?.filter fun c => ¬ NameChar c

theorem markOf_pathText {truncated : Bool} {l : List PathSegment} (hl : ∀ s ∈ l, s.Plain) :
    markOf (pathText truncated l) = mark truncated l := by
  match truncated, l with
  | true, _ => rfl
  | false, [] => rfl
  | false, .index _ :: _ => rfl
  | false, .field name :: l =>
    obtain ⟨hne, hname⟩ := hl (.field name) (by simp)
    obtain ⟨c, rest, hc⟩ := List.exists_cons_of_ne_nil (mt String.toList_eq_nil_iff.1 hne)
    have hplain : NameChar c := hname c (by simp [hc])
    simp [pathText, markOf, mark, hc, hplain]

theorem pathText_inj {b b' : Bool} {l m : List PathSegment} (hl : ∀ s ∈ l, s.Plain)
    (hm : ∀ s ∈ m, s.Plain) (h : pathText b l = pathText b' m) : b = b' ∧ l = m := by
  have hmark : mark b l = mark b' m := by rw [← markOf_pathText hl, h, markOf_pathText hm]
  match b, l, b', m with
  | true, l, true, m =>
    refine ⟨rfl, isCode_code.flatMap_inj hl hm ?_⟩
    simpa [pathText] using h
  | false, [], false, [] => exact ⟨rfl, rfl⟩
  | false, .field name :: l, false, .field name' :: m =>
    -- with the `.` it lacks, the text is the code of the whole path
    exact ⟨rfl, isCode_code.flatMap_inj hl hm (congrArg ('.' :: ·) h)⟩
  | false, .index i :: l, false, .index j :: m =>
    exact ⟨rfl, isCode_code.flatMap_inj hl hm h⟩
  | true, _, false, [] | true, _, false, .field _ :: _ | true, _, false, .index _ :: _
  | false, [], true, _ | false, .field _ :: _, true, _ | false, .index _ :: _, true, _
  | false, [], false, .field _ :: _ | false, [], false, .index _ :: _
  | false, .field _ :: _, false, [] | false, .field _ :: _, false, .index _ :: _
  | false, .index _ :: _, false, [] | false, .index _ :: _, false, .field _ :: _ =>
    simp [mark] at hmark

theorem detailsPath_inj {e e' : ValidationError} (he : ∀ s ∈ e.path, s.Plain)
    (he' : ∀ s ∈ e'.path, s.Plain) (h : detailsPath e = detailsPath e') :
    e.pathTruncated = e'.pathTruncated ∧ e.path = e'.path := by
  apply pathText_inj he he'
  rw [← toList_detailsPath, ← toList_detailsPath, h]

/-! ## What a peer reads -/

@[simp]
theorem pathOf_details (e : ValidationError) :
    pathOf (validationErrorParts e).2 = some (detailsPath e) := by
  simp [pathOf, validationErrorParts]

/-- Where two violations give a peer one `details["path"]`, they are at one place. -/
theorem path_of_details {e e' : ValidationError} (he : ∀ s ∈ e.path, s.Plain)
    (he' : ∀ s ∈ e'.path, s.Plain)
    (h : pathOf (validationErrorParts e).2 = pathOf (validationErrorParts e').2) :
    e.pathTruncated = e'.pathTruncated ∧ e.path = e'.path := by
  simp only [pathOf_details, Option.some.injEq] at h
  exact detailsPath_inj he he' h

def tooLong : ValidationError :=
  ⟨[.field "evse", .index 3], true, .property, "....evse[3]: longer than 20 characters"⟩

def tooMany : ValidationError :=
  ⟨[.field "evse", .index 3], true, .occurrence, "....evse[3]: more than 4 items"⟩

theorem path_of_tooLong :
    pathOf (validationErrorParts tooLong).2 = some "....evse[3]" ∧
      tooLong.pathTruncated = tooMany.pathTruncated ∧ tooLong.path = tooMany.path := by
  have hplain : ∀ s ∈ [PathSegment.field "evse", .index 3], s.Plain := by
    simp [PathSegment.Plain, NameChar]
  refine ⟨?_, path_of_details hplain hplain rfl⟩
  rw [pathOf_details]
  rfl

theorem RpcError.fromValidation_inj {C : Type} {code : ConstraintClass → C}
    (hcode : Function.Injective code) {e e' : ValidationError} (he : ∀ s ∈ e.path, s.Plain)
    (he' : ∀ s ∈ e'.path, s.Plain)
    (h : RpcError.fromValidation code e = RpcError.fromValidation code e') : e = e' := by
  have hdetails := congrArg RpcError.details h
  have htext : e.text = e'.text := congrArg RpcError.description h
  have hclass : e.constraintClass = e'.constraintClass := hcode (congrArg RpcError.code h)
  obtain ⟨htruncated, hpath⟩ := detailsPath_inj he he' (by
    simpa [fromValidation, validationErrorParts] using hdetails)
  cases e
  cases e'
  simp_all

theorem Version.fromValidation_inj (ver : Version) {e e' : ValidationError}
    (he : ∀ s ∈ e.path, s.Plain) (he' : ∀ s ∈ e'.path, s.Plain)
    (h : ver.fromValidation e = ver.fromValidation e') : e = e' := by
  cases ver with
  | v16 | v201 | v21 =>
    simp only [fromValidation, OCPP1_6Error.fromValidation, OCPP2_0_1Error.fromValidation,
      OCPP2_1Error.fromValidation] at h
    refine RpcError.fromValidation_inj ?_ he he' h
    intro c c' hc
    cases c <;> cases c' <;> simp_all

/-- In every version the CALLERROR that answers a violation tells it from every other. -/
theorem Version.violation_of_wire (ver : Version) {e e' : ValidationError}
    (he : ∀ s ∈ e.path, s.Plain) (he' : ∀ s ∈ e'.path, s.Plain)
    (hcode : ProtocolError.code (ver.fromValidation e)
      = ProtocolError.code (ver.fromValidation e'))
    (hdescription : ProtocolError.description (ver.fromValidation e)
      = ProtocolError.description (ver.fromValidation e'))
    (hdetails : ProtocolError.details (ver.fromValidation e)
      = ProtocolError.details (ver.fromValidation e')) : e = e' := by
  apply ver.fromValidation_inj he he'
  rw [← ver.fromWire_of_parts (ver.fromValidation e), hcode, hdescription, hdetails,
    ver.fromWire_of_parts]

end OcppClient
