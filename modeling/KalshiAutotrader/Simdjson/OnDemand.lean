import KalshiAutotrader.Kit.Json
import KalshiAutotrader.Kit.Reading
import Mathlib.Algebra.Ring.Int.Defs
import Mathlib.Algebra.Ring.Nat
import Mathlib.Logic.Function.Basic

/-!
simdjson On-Demand, as far as this program uses it.

Opening a document answers little; every later call may find an error of the
text that comes up only then. A lookup moves a cursor: it searches from the
member after the last one it stopped at to the end of the object, then from the
start up to where it began. Names are compared as they are spelled.

The library is not part of the program. What it makes of a text is the parameter
`iterate`; `Reads` is what the program relies on: a well-formed text is read as
the value it denotes, and no call reports an error of the text.
-/

namespace KalshiAutotrader.Simdjson

open Kit

inductive SimdError
  | noSuchField
  | incorrectType
  | numberOutOfRange
  | stringError
  | tapeError
  deriving DecidableEq

/-- A document that was opened. -/
structure Document where
  root : Json
  /-- For each call in turn, the error of the text that it reports in place of
  its answer. -/
  faults : List (Option SimdError)

/-- A lookup that was made: in the object open at this depth, of this name, and the error it
reported. -/
structure Lookup where
  depth : ℕ
  key : Bytes
  error : Option SimdError
  deriving DecidableEq

/-- A document being read. -/
structure Session where
  /-- For each depth, the members of the object open there that the cursor has
  passed. -/
  passed : ℕ → ℕ
  faults : List (Option SimdError)
  /-- History: the lookups made. -/
  lookups : List Lookup

def Document.session (doc : Document) : Session where
  passed := fun _ => 0
  faults := doc.faults
  lookups := []

abbrev Read (ε α : Type) := Reading Session ε α

/-- An open object. -/
structure Object where
  depth : ℕ
  members : List (Bytes × Json)

/-- A value, at the depth of the object it is a member of. -/
structure Value where
  depth : ℕ
  json : Json

/-- One call: its answer, unless an error of the text comes up. -/
def call {α : Type} (answer : Except SimdError α) : Read SimdError α := fun s =>
  match s.faults with
  | [] => (answer, s)
  | none :: faults => (answer, { s with faults := faults })
  | some e :: faults => (.error e, { s with faults := faults })

/-- Where a lookup finds a member: its place, and its value. -/
def Object.search (obj : Object) (passed : ℕ) (key : Bytes) : Option (ℕ × Json) :=
  ((obj.members.zipIdx.drop passed ++ obj.members.zipIdx.take passed).find?
    fun m => m.1.1 = key).map fun m => (m.2, m.1.2)

/-- The error of an answer. -/
def errorOf : Except SimdError Value → Option SimdError
  | .ok _ => none
  | .error e => some e

def Session.record (s : Session) (lookup : Lookup) : Session :=
  { s with lookups := s.lookups ++ [lookup] }

/-- A lookup, recorded with what it reports. -/
def recorded (depth : ℕ) (key : Bytes) (p : Read SimdError Value) : Read SimdError Value :=
  fun s => ((p.runFrom s).1, (p.runFrom s).2.record ⟨depth, key, errorOf (p.runFrom s).1⟩)

/-- `obj[key]`. -/
def Object.field (obj : Object) (key : Bytes) : Read SimdError Value := fun s =>
  match obj.search (s.passed obj.depth) key with
  | none => (recorded obj.depth key (call (.error .noSuchField))).runFrom s
  | some (place, v) =>
      (recorded obj.depth key (call (.ok ⟨obj.depth, v⟩))).runFrom
        { s with passed := Function.update s.passed obj.depth (place + 1) }

def asString : Json → Except SimdError Bytes
  | .str text => .ok text
  | .unpaired => .error .stringError
  | _ => .error .incorrectType

def asInt64 : Json → Except SimdError Int64
  | .int negative magnitude =>
      let z : ℤ := if negative then -magnitude else magnitude
      if -2 ^ 63 ≤ z ∧ z < 2 ^ 63 then .ok (.ofInt z) else .error .numberOutOfRange
  | _ => .error .incorrectType

/-- A minus sign is no part of an unsigned number, not even before `0`. -/
def asUint64 : Json → Except SimdError UInt64
  | .int false magnitude =>
      if magnitude < 2 ^ 64 then .ok (.ofNat magnitude) else .error .numberOutOfRange
  | _ => .error .incorrectType

def asBool : Json → Except SimdError Bool
  | .bool val => .ok val
  | _ => .error .incorrectType

def asArray : Json → Except SimdError (List Json)
  | .arr items => .ok items
  | _ => .error .incorrectType

def asObject : Json → Except SimdError (List (Bytes × Json))
  | .obj members => .ok members
  | _ => .error .incorrectType

theorem asString_eq_ok {v : Json} {text : Bytes} : asString v = .ok text ↔ v = .str text := by
  cases v <;> simp [asString]

theorem asBool_eq_ok {v : Json} {val : Bool} : asBool v = .ok val ↔ v = .bool val := by
  cases v <;> simp [asBool]

theorem asObject_eq_ok {v : Json} {members : List (Bytes × Json)} :
    asObject v = .ok members ↔ v = .obj members := by
  cases v <;> simp [asObject]

theorem asUint64_eq_ok {v : Json} {n : UInt64} : asUint64 v = .ok n ↔ v = .int false n.toNat := by
  cases v with
  | int negative magnitude =>
      cases negative with
      | true => simp [asUint64]
      | false =>
          simp only [asUint64, Json.int.injEq, true_and]
          split
          · next hlt =>
            rw [Except.ok.injEq]
            constructor
            · rintro rfl
              exact (UInt64.toNat_ofNat_of_lt' hlt).symm
            · rintro rfl
              exact UInt64.ofNat_toNat
          · next hlt =>
            exact ⟨(fun h => by cases h), fun h => absurd (h ▸ n.toNat_lt) hlt⟩
  | _ => simp [asUint64]

def Value.getString (v : Value) : Read SimdError Bytes := call (asString v.json)

def Value.getInt64 (v : Value) : Read SimdError Int64 := call (asInt64 v.json)

def Value.getUint64 (v : Value) : Read SimdError UInt64 := call (asUint64 v.json)

def Value.getBool (v : Value) : Read SimdError Bool := call (asBool v.json)

def Value.getArray (v : Value) : Read SimdError (List Value) :=
  List.map (fun item => ⟨v.depth, item⟩) <$> call (asArray v.json)

/-- Opens an object inside another one: its cursor stands before its first
member. -/
def openObject (depth : ℕ) (json : Json) : Read SimdError Object := fun s =>
  (Object.mk depth <$> call (asObject json)).runFrom
    { s with passed := Function.update s.passed depth 0 }

def Value.getObject (v : Value) : Read SimdError Object := openObject (v.depth + 1) v.json

/-- `doc.get_object()`. -/
def Document.getObject (doc : Document) : Read SimdError Object := openObject 0 doc.root

/-- `doc[key]`, which opens the root object or resumes it. -/
def Document.field (doc : Document) (key : Bytes) : Read SimdError Value := do
  let members ← call (asObject doc.root)
  (Object.mk 0 members).field key

/-- What the program relies on. The pass tells the documents apart that are
opened on one text. -/
def Reads (iterate : ℕ → Bytes → Except SimdError Document) : Prop :=
  ∀ pass text v, Json.IsText some text v → iterate pass text = .ok ⟨v, []⟩

/-- A library that checks the whole text when it opens it. -/
def eager (_ : ℕ) (text : Bytes) : Except SimdError Document :=
  match Json.parse some text with
  | some v => .ok ⟨v, []⟩
  | none => .error .tapeError

theorem reads_eager : Reads eager := by
  intro pass text v htext
  rw [eager, htext.2]

/-! ### Texts without errors

Without faults, a lookup of a name that occurs once answers with the member of that
name, wherever the cursor stands. -/

/-- No call will report an error of the text. -/
def Session.Sound (s : Session) : Prop := s.faults = []

open Reading

theorem answers_call {α : Type} (answer : Except SimdError α) :
    Answers Session.Sound (call answer) answer := by
  rintro ⟨passed, faults, reported⟩ hs
  obtain rfl : faults = [] := hs
  exact ⟨rfl, rfl⟩

/-- The search covers the whole object, wherever it starts. -/
theorem mem_searched {obj : Object} {passed : ℕ} {m : (Bytes × Json) × ℕ} :
    m ∈ obj.members.zipIdx.drop passed ++ obj.members.zipIdx.take passed ↔
      m ∈ obj.members.zipIdx := by
  rw [List.mem_append, or_comm, ← List.mem_append, List.take_append_drop]

theorem mem_of_search {obj : Object} {passed : ℕ} {key : Bytes} {found : ℕ × Json}
    (h : obj.search passed key = some found) : (key, found.2) ∈ obj.members := by
  obtain ⟨⟨⟨name, v⟩, i⟩, hfind, rfl⟩ := Option.map_eq_some_iff.mp h
  have hname : name = key := by simpa using List.find?_some hfind
  exact hname ▸ List.fst_mem_of_mem_zipIdx (mem_searched.mp (List.mem_of_find?_eq_some hfind))

theorem notMem_of_search {obj : Object} {passed : ℕ} {key : Bytes}
    (h : obj.search passed key = none) : ∀ m ∈ obj.members, m.1 ≠ key := by
  intro m hm
  obtain ⟨i, hi⟩ := List.getElem?_of_mem hm
  have hnot := List.find?_eq_none.mp (Option.map_eq_none_iff.mp h) (m, i)
    (mem_searched.mpr (List.mem_zipIdx_iff_getElem?.mpr hi))
  simpa only [decide_eq_true_eq] using hnot

theorem search_eq_lookup {obj : Object} {key : Bytes} (honce : Json.Once obj.members key)
    (passed : ℕ) :
    (obj.search passed key).map Prod.snd = obj.members.lookup key := by
  cases hsearch : obj.search passed key with
  | none =>
      exact (List.lookup_eq_none_iff.mpr fun m hm =>
        bne_iff_ne.mpr (notMem_of_search hsearch m hm).symm).symm
  | some found =>
      exact ((Json.lookup_eq_some_iff_of_once honce).mpr (mem_of_search hsearch)).symm

/-- The value a lookup answers with. -/
def lookup (members : List (Bytes × Json)) (key : Bytes) : Except SimdError Json :=
  (members.lookup key).elim (.error .noSuchField) .ok

theorem yields_recorded {p : Read SimdError Value} {P : Except SimdError Value → Prop}
    {depth : ℕ} {key : Bytes} (hp : Yields Session.Sound p P) :
    Yields Session.Sound (recorded depth key p) P :=
  fun s hs => ⟨(hp s hs).1, (hp s hs).2⟩

theorem answers_recorded {p : Read SimdError Value} {r : Except SimdError Value}
    {depth : ℕ} {key : Bytes} (hp : Answers Session.Sound p r) :
    Answers Session.Sound (recorded depth key p) r :=
  yields_recorded (P := (· = r)) hp

theorem answers_field {obj : Object} {key : Bytes} (honce : Json.Once obj.members key) :
    Answers Session.Sound (obj.field key) (Value.mk obj.depth <$> lookup obj.members key) := by
  intro s hs
  rw [lookup, ← search_eq_lookup honce (s.passed obj.depth)]
  simp only [Reading.runFrom, ExceptT.run, Object.field]
  cases obj.search (s.passed obj.depth) key with
  | none => exact answers_recorded (answers_call _) s hs
  | some found => exact answers_recorded (answers_call (.ok _)) { s with passed := _ } hs

theorem answers_openObject (depth : ℕ) (json : Json) :
    Answers Session.Sound (openObject depth json) (Object.mk depth <$> asObject json) :=
  fun s hs => (answers_call (asObject json)).map (Object.mk depth)
    { s with passed := Function.update s.passed depth 0 } hs

theorem answers_documentField {doc : Document} {members : List (Bytes × Json)}
    (hroot : doc.root = .obj members) {key : Bytes} (honce : Json.Once members key) :
    Answers Session.Sound (doc.field key) (Value.mk 0 <$> lookup members key) := by
  unfold Document.field
  rw [hroot]
  refine (answers_call (.ok members)).bind
    (g := fun ms => Value.mk 0 <$> lookup ms key) fun ms hms => ?_
  obtain rfl := Except.ok.inj hms
  have hobject : (Object.mk 0 members).members = members := rfl
  exact answers_field (hobject ▸ honce)

/-! ### Names that are repeated

When a name occurs more than once, it depends on the cursor which of the members is
found, but one of them is. -/

/-- What a lookup of `key` may answer with. -/
def Found (members : List (Bytes × Json)) (key : Bytes) : Except SimdError Value → Prop
  | .ok v => (key, v.json) ∈ members
  | .error _ => key ∉ members.map Prod.fst

theorem yields_field (obj : Object) (key : Bytes) :
    Yields Session.Sound (obj.field key) (Found obj.members key) := by
  intro s hs
  simp only [Reading.runFrom, ExceptT.run, Object.field]
  cases hsearch : obj.search (s.passed obj.depth) key with
  | none =>
      refine yields_recorded ((answers_call _).yields ?_) s hs
      intro hmem
      obtain ⟨m, hm, hname⟩ := List.mem_map.mp hmem
      exact notMem_of_search hsearch m hm hname
  | some found =>
      exact yields_recorded ((answers_call (.ok _)).yields (mem_of_search hsearch))
        { s with passed := _ } hs

theorem yields_documentField {doc : Document} {members : List (Bytes × Json)}
    (hroot : doc.root = .obj members) (key : Bytes) :
    Yields Session.Sound (doc.field key) (Found members key) := by
  unfold Document.field
  rw [hroot]
  refine ((answers_call (.ok members)).yields (P := (· = .ok members)) rfl).bind ?_ ?_
  · intro ms hms
    obtain rfl := Except.ok.inj hms
    exact yields_field ⟨0, ms⟩ key
  · exact fun e he => by cases he

end KalshiAutotrader.Simdjson
