import Mathlib.Data.List.Perm.Basic
import Mathlib.Logic.Function.Basic

/-! Package `jsonutil`. `Validate` compares the decoded names of an object exactly; encoding/json
assigns members by exact name or else up to letter case (`fold`). -/

namespace Monik.StrictJson

inductive Json (α : Type)
  | scalar (v : α)
  | array (items : List (Json α))
  | object (members : List (String × Json α))

/-- The types a document is decoded into; a struct lists the JSON names of its fields. -/
inductive Schema
  | leaf
  | list (elem : Schema)
  | map (elem : Schema)
  | struct (fields : List (String × Schema))

variable {α : Type}

mutual

def value (depth : Nat) : Json α → Bool
  | .scalar _ => depth ≤ 64
  | .array items => depth ≤ 64 && arrayValues (depth + 1) items
  | .object members => depth ≤ 64 && objectMembers (depth + 1) [] members

def arrayValues (depth : Nat) : List (Json α) → Bool
  | [] => true
  | v :: rest => value depth v && arrayValues depth rest

def objectMembers (depth : Nat) (keys : List String) : List (String × Json α) → Bool
  | [] => true
  | (key, v) :: rest => !keys.contains key && value depth v && objectMembers depth (key :: keys) rest

end

def validate (doc : Json α) : Bool := value 0 doc

theorem arrayValues_mem {depth : Nat} {items : List (Json α)} (h : arrayValues depth items) :
    ∀ v ∈ items, value depth v := by
  induction items with
  | nil => simp
  | cons w rest ih =>
    simp only [arrayValues, Bool.and_eq_true] at h
    simpa [h.1] using ih h.2

variable {members : List (String × Json α)}

theorem objectMembers_mem {depth : Nat} {keys : List String} (h : objectMembers depth keys members) :
    (members.map Prod.fst).Nodup ∧ ∀ m ∈ members, m.1 ∉ keys ∧ value depth m.2 := by
  induction members generalizing keys with
  | nil => simp
  | cons m rest ih =>
    simp only [objectMembers, Bool.and_eq_true, Bool.not_eq_true', List.contains_eq_mem,
      decide_eq_false_iff_not] at h
    obtain ⟨⟨new, valid⟩, later⟩ := h
    obtain ⟨nodup, ok⟩ := ih later
    constructor
    · rw [List.map_cons, List.nodup_cons]
      refine ⟨?_, nodup⟩
      intro again
      obtain ⟨m', mem, same⟩ := List.mem_map.mp again
      exact (ok m' mem).1 (by simp [same])
    · intro m' mem
      rcases List.mem_cons.mp mem with rfl | mem
      · exact ⟨new, valid⟩
      · exact ⟨fun before => (ok m' mem).1 (List.mem_cons_of_mem _ before), (ok m' mem).2⟩

section Decoding

variable (fold : String → String)

def field (fields : List (String × Schema)) (key : String) : Option (String × Schema) :=
  (fields.find? fun f => f.1 == key).or (fields.find? fun f => fold f.1 == fold key)

/-- The objects that are decoded into structs, at every nesting level, each with the struct's fields. -/
inductive Reached : Schema → Json α → List (String × Schema) → List (String × Json α) → Prop
  | here fields members : Reached (.struct fields) (.object members) fields members
  | inField {fields members m f fs ms} : m ∈ members → field fold fields m.1 = some f →
      Reached f.2 m.2 fs ms → Reached (.struct fields) (.object members) fs ms
  | inList {elem items v fs ms} : v ∈ items → Reached elem v fs ms → Reached (.list elem) (.array items) fs ms
  | inMap {elem members m fs ms} : m ∈ members → Reached elem m.2 fs ms →
      Reached (.map elem) (.object members) fs ms

/-- Decoding an object into a struct, for any decoder `assign` of the fields' values. -/
def decodeStruct {V : Type} (assign : String × Schema → V → Json α → V) (fields : List (String × Schema))
    (old : String → V) (members : List (String × Json α)) : String → V :=
  members.foldl (fun decoded m => (field fold fields m.1).elim decoded fun f =>
    Function.update decoded f.1 (assign f (decoded f.1) m.2)) old

def Unambiguous (fields : List (String × Schema)) (members : List (String × Json α)) : Prop :=
  members.Pairwise fun a b => ∀ f, field fold fields a.1 = some f →
    ∀ g, field fold fields b.1 = some g → f.1 ≠ g.1

/-- Both names are spellings of one field, and neither is the exact name of another field. -/
def Clash (fields : List (String × Schema)) (a b : String) : Prop :=
  fold a = fold b ∧ ∃ f, fields.find? (fun f => fold f.1 == fold a) = some f ∧
    (a = f.1 ∨ ∀ g ∈ fields, g.1 ≠ a) ∧ (b = f.1 ∨ ∀ g ∈ fields, g.1 ≠ b)

variable {fold} {fields : List (String × Schema)} {key a b : String} {f : String × Schema}

theorem Reached.nodup {schema : Schema} {doc : Json α} {fs : List (String × Schema)}
    {ms : List (String × Json α)} (h : Reached fold schema doc fs ms) :
    ∀ {depth : Nat}, value depth doc → (ms.map Prod.fst).Nodup := by
  induction h with
  | here fields members =>
    intro depth valid
    simp only [value, Bool.and_eq_true] at valid
    exact (objectMembers_mem valid.2).1
  | inField mem _ _ ih | inMap mem _ ih =>
    intro depth valid
    simp only [value, Bool.and_eq_true] at valid
    exact ih ((objectMembers_mem valid.2).2 _ mem).2
  | inList mem _ ih =>
    intro depth valid
    simp only [value, Bool.and_eq_true] at valid
    exact ih (arrayValues_mem valid.2 _ mem)

theorem find?_exact_none (h : ∀ g ∈ fields, g.1 ≠ key) : (fields.find? fun f => f.1 == key) = none := by
  simpa using fun name schema mem => h (name, schema) mem

theorem find?_exact (h : fields.find? (fun f => fold f.1 == fold key) = some f) :
    (fields.find? fun g => g.1 == f.1) = some f := by
  obtain ⟨met, l, r, rows, earlier⟩ := List.find?_eq_some_iff_append.mp h
  refine List.find?_eq_some_iff_append.mpr ⟨by simp, l, r, rows, ?_⟩
  intro g mem
  have other := earlier g mem
  simp only [Bool.not_eq_true', beq_eq_false_iff_ne, beq_iff_eq] at other met ⊢
  intro same
  exact other (same ▸ met)

theorem field_cases (h : field fold fields key = some f) : fold f.1 = fold key ∧ (f.1 = key ∨
      (∀ g ∈ fields, g.1 ≠ key) ∧ fields.find? (fun f => fold f.1 == fold key) = some f) := by
  unfold field at h
  cases exact : fields.find? fun g => g.1 == key with
  | some g =>
    rw [exact, Option.some_or, Option.some.injEq] at h
    subst h
    have named := by simpa using List.find?_some exact
    exact ⟨congrArg fold named, .inl named⟩
  | none =>
    rw [exact, Option.none_or] at h
    refine ⟨by simpa using List.find?_some h, .inr ⟨?_, h⟩⟩
    intro g mem
    simpa using List.find?_eq_none.mp exact g mem

theorem field_of_spelling (found : fields.find? (fun f => fold f.1 == fold a) = some f) (same : fold key = fold a)
    (name : key = f.1 ∨ ∀ g ∈ fields, g.1 ≠ key) : field fold fields key = some f := by
  unfold field
  rcases name with rfl | foreign
  · rw [find?_exact found, Option.some_or]
  · rw [find?_exact_none foreign, Option.none_or, same, found]

theorem clash_iff (ne : a ≠ b) :
    Clash fold fields a b ↔ ∃ f g, field fold fields a = some f ∧ field fold fields b = some g ∧ f.1 = g.1 := by
  constructor
  · rintro ⟨same, f, found, first, second⟩
    exact ⟨f, f, field_of_spelling found rfl first, field_of_spelling found same.symm second, rfl⟩
  · rintro ⟨f, g, first, second, eq⟩
    obtain ⟨spelt, mine⟩ := field_cases first
    obtain ⟨spelt', other⟩ := field_cases second
    have same : fold a = fold b := by rw [← spelt, ← spelt', eq]
    refine ⟨same, ?_⟩
    rcases mine with named | ⟨foreign, found⟩ <;> rcases other with named' | ⟨foreign', found'⟩
    · exact absurd (named.symm.trans (eq.trans named')) ne
    · exact ⟨g, same ▸ found', .inl (named.symm.trans eq), .inr foreign'⟩
    · exact ⟨f, found, .inr foreign, .inl (named'.symm.trans eq.symm)⟩
    · exact ⟨f, found, .inr foreign, .inr foreign'⟩

theorem unambiguous_iff (nodup : (members.map Prod.fst).Nodup) :
    Unambiguous fold fields members ↔ members.Pairwise fun a b => ¬Clash fold fields a.1 b.1 := by
  have apart : members.Pairwise fun a b => a.1 ≠ b.1 := List.pairwise_map.mp nodup
  constructor
  · intro h
    refine (h.and apart).imp ?_
    rintro m m' ⟨law, ne⟩ clash
    obtain ⟨f, g, first, second, eq⟩ := (clash_iff ne).mp clash
    exact law f first g second eq
  · intro h
    refine (h.and apart).imp ?_
    rintro m m' ⟨free, ne⟩ f first g second eq
    exact free ((clash_iff ne).mpr ⟨f, g, first, second, eq⟩)

theorem assign_comm {V : Type} (assign : String × Schema → V → Json α → V) (decoded : String → V)
    {m m' : String × Json α}
    (apart : ∀ f, field fold fields m.1 = some f → ∀ g, field fold fields m'.1 = some g → f.1 ≠ g.1) :
    decodeStruct fold assign fields decoded [m, m'] = decodeStruct fold assign fields decoded [m', m] := by
  simp only [decodeStruct, List.foldl_cons, List.foldl_nil]
  cases first : field fold fields m.1 with
  | none => simp
  | some f =>
    cases second : field fold fields m'.1 with
    | none => simp
    | some g =>
      have ne := apart f first g second
      simp only [Option.elim_some, Function.update_of_ne ne, Function.update_of_ne ne.symm]
      exact Function.update_comm ne _ _ _

theorem decodeStruct_perm {V : Type} (assign : String × Schema → V → Json α → V) (old : String → V)
    {members' : List (String × Json α)} (h : Unambiguous fold fields members) (perm : members.Perm members') :
    decodeStruct fold assign fields old members' = decodeStruct fold assign fields old members := by
  induction perm generalizing old with
  | nil => rfl
  | cons m _ ih => exact ih _ (List.pairwise_cons.mp h).2
  | swap m m' rest =>
    have swapped := assign_comm assign old ((List.pairwise_cons.mp h).1 m (by simp))
    simp only [decodeStruct, List.foldl_cons, List.foldl_nil] at swapped ⊢
    rw [swapped]
  | trans first _ ih ih' =>
    rw [ih' old ((first.pairwise_iff ?_).mp h), ih old h]
    intro m m' apart f hf g hg eq
    exact apart g hg f hf eq.symm

end Decoding

/-- For every accepted document and type: members go to different fields exactly if no two names clash, and
then in any order. -/
theorem strict_decoding_unambiguous_iff (fold : String → String) (schema : Schema) (doc : Json α)
    (accepted : validate doc) :
    ((∀ fields members, Reached fold schema doc fields members → Unambiguous fold fields members) ↔
      ∀ fields members, Reached fold schema doc fields members →
        members.Pairwise fun a b => ¬Clash fold fields a.1 b.1) ∧
    ∀ fields members, Reached fold schema doc fields members →
      (members.Pairwise fun a b => ¬Clash fold fields a.1 b.1) →
      ∀ members', members.Perm members' → ∀ (V : Type) assign (old : String → V),
        decodeStruct fold assign fields old members' = decodeStruct fold assign fields old members := by
  constructor
  · refine forall₃_congr ?_
    intro fields members reached
    exact unambiguous_iff (reached.nodup accepted)
  · intro fields members reached free members' perm V assign old
    exact decodeStruct_perm assign old ((unambiguous_iff (reached.nodup accepted)).mpr free) perm

def checkFields : List (String × Schema) := [("id", .leaf), ("path", .leaf)]

def serviceFields : List (String × Schema) := [("host", .leaf), ("checks", .list (.struct checkFields))]

def service : Json Nat :=
  .object [("HOST", .scalar 1), ("checks", .array [.object [("path", .scalar 2), ("Id", .scalar 3)]]),
    ("note", .scalar 4)]

theorem nested_members_unambiguous :
    validate service ∧ ∀ fields members,
      Reached String.toLower (.struct serviceFields) service fields members →
        Unambiguous String.toLower fields members := by
  have accepted : validate service := by decide
  refine ⟨accepted, (strict_decoding_unambiguous_iff String.toLower (.struct serviceFields) service
    accepted).1.mpr ?_⟩
  intro fields members reached
  have apart : members.Pairwise fun a b => String.toLower a.1 ≠ String.toLower b.1 := by
    cases reached with
    | here => decide +kernel
    | @inField _ _ m f _ _ mem found later =>
      obtain ⟨name, schema⟩ := f
      rcases List.mem_cons.mp mem with rfl | mem
      · cases later
      rcases List.mem_cons.mp mem with rfl | mem
      · obtain ⟨rfl, rfl⟩ : "checks" = name ∧ .list (.struct checkFields) = schema := by
          simpa [field, serviceFields] using found
        cases later with
        | inList mem later =>
          obtain rfl := List.mem_singleton.mp mem
          cases later with
          | here => decide +kernel
          | @inField _ _ m f _ _ mem _ later =>
            obtain ⟨name, schema⟩ := f
            simp only [List.mem_cons, List.not_mem_nil, or_false] at mem
            rcases mem with rfl | rfl <;> cases later
      · obtain rfl := List.mem_singleton.mp mem
        cases later
  exact apart.imp fun ne clash => ne clash.1

theorem host_spelt_twice :
    validate (.object [("host", .scalar 1), ("Host", .scalar 2)]) ∧
      ¬Unambiguous String.toLower [("host", .leaf)] [("host", Json.scalar 1), ("Host", .scalar 2)] ∧
      decodeStruct String.toLower (fun _ _ v => some v) [("host", .leaf)] (fun _ => none)
          [("host", Json.scalar 1), ("Host", .scalar 2)] "host" = some (.scalar 2) ∧
      decodeStruct String.toLower (fun _ _ v => some v) [("host", .leaf)] (fun _ => none)
          [("Host", Json.scalar 2), ("host", .scalar 1)] "host" = some (.scalar 1) := by
  have same : String.toLower "Host" = String.toLower "host" := by decide +kernel
  have upper : field String.toLower [("host", .leaf)] "Host" = some ("host", .leaf) := by simp [field, same]
  have lower : field String.toLower [("host", .leaf)] "host" = some ("host", .leaf) := by simp [field]
  refine ⟨by decide, ?_, ?_, ?_⟩
  · intro h
    exact (List.pairwise_cons.mp h).1 ("Host", .scalar 2) (by simp) _ lower _ upper rfl
  · simp [decodeStruct, upper, lower]
  · simp [decodeStruct, upper, lower]

end Monik.StrictJson
