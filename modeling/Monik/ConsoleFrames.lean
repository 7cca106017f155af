import Mathlib.Algebra.Group.Int.Defs
import Monik.JsonText

/-! Frames of a terminal session (`agentconsole`): the controller decodes a frame of the browser,
checks it, names the session and encodes it again. A frame is its members, each string as it is
spelt, and its size. -/

namespace Monik.ConsoleFrames
open JsonText

def maxFrame : Nat := 24 * 1024
def maxInput : Nat := 4096

inductive Field
  | type | session | ticket | data | user | message | cols | rows | seq

namespace Field

def all : List Field := [type, session, ticket, data, user, message, cols, rows, seq]

def nameSize : Field → Nat
  | type | data | user | cols | rows => 4
  | session | message => 7
  | ticket => 6
  | seq => 3

end Field

inductive Literal
  /-- A string as it is spelt, with its quotes. -/
  | str (raw : List Char)
  | int (n : Int)
  | null
  | other
  deriving DecidableEq

structure Frame where
  size : Nat
  /-- An object in UTF-8 that `jsonutil.Validate` accepts, so that no name comes twice. -/
  valid : Bool
  get : Field → Option Literal
  /-- A member with another name. -/
  unknown : Bool

structure Message where
  type : List Char
  session : List Char := []
  ticket : List Char := []
  data : List Char := []
  user : List Char := []
  message : List Char := []
  cols : Int := 0
  rows : Int := 0
  seq : Int := 0
  deriving DecidableEq

def input : List Char := ['i', 'n', 'p', 'u', 't']
def resize : List Char := ['r', 'e', 's', 'i', 'z', 'e']
def close : List Char := ['c', 'l', 'o', 's', 'e']

def size (cols rows : Int) : Bool := decide (20 ≤ cols ∧ cols ≤ 300 ∧ 5 ≤ rows ∧ rows ≤ 120)

def id (s : List Char) : Bool :=
  decide (s.length = 64) && s.all fun c => decide ('0' ≤ c ∧ c ≤ '9' ∨ 'a' ≤ c ∧ c ≤ 'f')

def textOf : Option Literal → Option (List Char)
  | none => some []
  | some (.str raw) => unquote raw
  | some _ => none

/-- The integers of a message have 64 bits. -/
def numberOf : Option Literal → Option Int
  | none => some 0
  | some (.int n) => if -2 ^ 63 ≤ n ∧ n < 2 ^ 63 then some n else none
  | some _ => none

def fields (f : Frame) : Option Message := do
  let type ← textOf (f.get .type)
  let session ← textOf (f.get .session)
  let ticket ← textOf (f.get .ticket)
  let data ← textOf (f.get .data)
  let user ← textOf (f.get .user)
  let message ← textOf (f.get .message)
  let cols ← numberOf (f.get .cols)
  let rows ← numberOf (f.get .rows)
  let seq ← numberOf (f.get .seq)
  return { type, session, ticket, data, user, message, cols, rows, seq }

def withinLimits (m : Message) : Bool :=
  decide (byteSize m.type ≤ 24 ∧ byteSize m.session ≤ 64 ∧ byteSize m.ticket ≤ 64 ∧ byteSize m.data ≤ 12000 ∧
    byteSize m.user ≤ 64 ∧ byteSize m.message ≤ 256 ∧ 0 ≤ m.seq)

def decode (f : Frame) : Except String Message :=
  if maxFrame < f.size ∨ f.valid = false then .error "invalid terminal frame"
  else if Field.all.any fun k => decide (f.get k = some .null) then .error "null terminal field"
  else if f.unknown then .error "unknown terminal field"
  else match fields f with
    | none => .error "invalid terminal field type"
    | some m => if withinLimits m then .ok m else .error "terminal field limit"

def validateInput (m : Message) (last : Nat) : Bool :=
  decide (m.ticket = [] ∧ m.user = [] ∧ m.message = [] ∧ m.seq = last + 1) &&
    if m.type = input then decide (m.data ≠ [] ∧ byteSize m.data ≤ maxInput ∧ m.cols = 0 ∧ m.rows = 0)
    else if m.type = resize then decide (m.data = []) && size m.cols m.rows
    else if m.type = close then decide (m.data = [] ∧ m.cols = 0 ∧ m.rows = 0)
    else false

def omitEmpty (s : List Char) : Option Literal := if s = [] then none else some (.str (quote s))

def omitZero (n : Int) : Option Literal := if n = 0 then none else some (.int n)

def literal (m : Message) : Field → Option Literal
  | .type => some (.str (quote m.type))
  | .session => omitEmpty m.session
  | .ticket => omitEmpty m.ticket
  | .data => omitEmpty m.data
  | .user => omitEmpty m.user
  | .message => omitEmpty m.message
  | .cols => omitZero m.cols
  | .rows => omitZero m.rows
  | .seq => omitZero m.seq

def Literal.size : Literal → Nat
  | .str raw => byteSize raw
  | .int n => decimalSize n
  | .null | .other => 0

theorem Literal.size_str (raw : List Char) : (Literal.str raw).size = byteSize raw := rfl

def memberSize (m : Message) (k : Field) : Nat :=
  (literal m k).elim 0 fun v => k.nameSize + 4 + v.size

def marshal (m : Message) : Frame where
  size := (Field.all.map (memberSize m)).sum + 1
  valid := true
  get := literal m
  unknown := false

def send (m : Message) : Option Frame := if maxFrame < (marshal m).size then none else some (marshal m)

variable {m : Message} {s session : List Char}

theorem textOf_omitEmpty (s : List Char) : textOf (omitEmpty s) = some s := by
  unfold omitEmpty
  split
  · simp [textOf, *]
  · simp [textOf, unquote_quote]

theorem numberOf_omitZero {n : Int} (range : -2 ^ 63 ≤ n ∧ n < 2 ^ 63) : numberOf (omitZero n) = some n := by
  unfold omitZero
  split
  · simp [numberOf, *]
  · simp only [numberOf, if_pos range]

/-- What is sent is read back, apart from the limits of the frame and of the message. -/
theorem fields_marshal (cols : -2 ^ 63 ≤ m.cols ∧ m.cols < 2 ^ 63) (rows : -2 ^ 63 ≤ m.rows ∧ m.rows < 2 ^ 63)
    (seq : -2 ^ 63 ≤ m.seq ∧ m.seq < 2 ^ 63) : fields (marshal m) = some m := by
  have type : textOf (literal m .type) = some m.type := unquote_quote m.type
  simp only [fields, marshal, type]
  simp only [literal, textOf_omitEmpty, numberOf_omitZero cols, numberOf_omitZero rows, numberOf_omitZero seq]
  rfl

theorem decode_marshal (cols : -2 ^ 63 ≤ m.cols ∧ m.cols < 2 ^ 63) (rows : -2 ^ 63 ≤ m.rows ∧ m.rows < 2 ^ 63)
    (seq : -2 ^ 63 ≤ m.seq ∧ m.seq < 2 ^ 63) (limits : withinLimits m)
    (fits : (marshal m).size ≤ maxFrame) : decode (marshal m) = .ok m := by
  have present : ¬Field.all.any (fun k => decide ((marshal m).get k = some .null)) := by
    simp [Field.all, marshal, literal, omitEmpty, omitZero]
  unfold decode
  rw [if_neg (by simp [marshal] at fits ⊢; omega), if_neg present, fields_marshal cols rows seq]
  simp [marshal, limits]

theorem escape_hex {c : Char} (h : '0' ≤ c ∧ c ≤ '9' ∨ 'a' ≤ c ∧ c ≤ 'f') : escape c = [c] ∧ c.utf8Size = 1 := by
  have range : 48 ≤ c.toNat ∧ c.toNat ≤ 57 ∨ 97 ≤ c.toNat ∧ c.toNat ≤ 102 := h
  have apart : ∀ d : Char, d.toNat < 48 ∨ 102 < d.toNat ∨ d.toNat = 92 ∨ d.toNat = 60 ∨ d.toNat = 62 → d ≠ c := by
    rintro d outside rfl
    omega
  have short : short.find? (fun e => e.2 == c) = none := by simp [JsonText.short, apart]
  have plain : long c = false := by
    simp [long, (apart _ _).symm]
    omega
  have ascii : c.val ≤ 0x7f := UInt32.le_iff_toNat_le.mpr (show c.toNat ≤ 127 by omega)
  constructor
  · simp [escape, short, plain]
  · simp [Char.utf8Size, ascii]

theorem byteSize_id (h : id session) : session ≠ [] ∧ byteSize session = 64 ∧ byteSize (quote session) = 66 := by
  simp only [id, Bool.and_eq_true, decide_eq_true_eq, List.all_eq_true] at h
  obtain ⟨length, digits⟩ := h
  have plain : ∀ s : List Char, (∀ c ∈ s, '0' ≤ c ∧ c ≤ '9' ∨ 'a' ≤ c ∧ c ≤ 'f') →
      s.flatMap escape = s ∧ byteSize s = s.length := by
    intro s
    induction s with
    | nil => simp [byteSize]
    | cons c s ih =>
      intro hex
      obtain ⟨same, total⟩ := ih fun d mem => hex d (List.mem_cons_of_mem c mem)
      have first := escape_hex (hex c List.mem_cons_self)
      unfold byteSize at total ⊢
      refine ⟨by simp [first.1, same], by simp [first.2, total]; omega⟩
  obtain ⟨same, total⟩ := plain session digits
  refine ⟨?_, by omega, by rw [byteSize_quote, same]; omega⟩
  rintro rfl
  simp at length

theorem numberOf_range {l : Option Literal} {n : Int} (h : numberOf l = some n) : -2 ^ 63 ≤ n ∧ n < 2 ^ 63 := by
  unfold numberOf at h
  split at h
  · cases h
    omega
  · split at h
    · cases h
      assumption
    · cases h
  · cases h

theorem decode_ok {f : Frame} (h : decode f = .ok m) :
    withinLimits m ∧ (-2 ^ 63 ≤ m.cols ∧ m.cols < 2 ^ 63) ∧ (-2 ^ 63 ≤ m.rows ∧ m.rows < 2 ^ 63) ∧
      -2 ^ 63 ≤ m.seq ∧ m.seq < 2 ^ 63 := by
  unfold decode at h
  split at h
  · cases h
  split at h
  · cases h
  split at h
  · cases h
  split at h
  · cases h
  · rename_i read
    split at h
    · rename_i limits
      cases h
      simp only [fields, Option.bind_eq_bind, Option.bind_eq_some_iff] at read
      obtain ⟨_, -, _, -, _, -, _, -, _, -, _, -, cols, hc, rows, hr, seq, hs, made⟩ := read
      cases made
      exact ⟨limits, numberOf_range hc, numberOf_range hr, numberOf_range hs⟩
    · cases h

theorem input_size (hid : id session) (type : m.type = input) (data : m.data ≠ []) (ticket : m.ticket = [])
    (user : m.user = []) (message : m.message = []) (cols : m.cols = 0) (rows : m.rows = 0) (seq : m.seq ≠ 0) :
    (marshal { m with session := session }).size = 110 + byteSize (m.data.flatMap escape) + decimalSize m.seq := by
  obtain ⟨named, -, total⟩ := byteSize_id hid
  have kind : byteSize (quote input) = 7 := by decide
  simp [marshal, Field.all, memberSize, literal, omitEmpty, omitZero, Literal.size, Field.nameSize, *, byteSize_quote]
  omega

theorem control_size (hid : id session) (type : m.type = resize ∨ m.type = close) (data : m.data = [])
    (ticket : m.ticket = []) (user : m.user = []) (message : m.message = []) (cols : 0 ≤ m.cols ∧ m.cols ≤ 300)
    (rows : 0 ≤ m.rows ∧ m.rows ≤ 120) (seq : 0 ≤ m.seq ∧ m.seq < 2 ^ 63) :
    (marshal { m with session := session }).size ≤ maxFrame := by
  obtain ⟨named, -, total⟩ := byteSize_id hid
  have kind : byteSize (quote m.type) ≤ 8 := by rcases type with h | h <;> rw [h] <;> decide
  have digits : decimalSize m.cols ≤ 3 ∧ decimalSize m.rows ≤ 3 ∧ decimalSize m.seq ≤ 19 :=
    ⟨decimalSize_le cols.1 (by decide) (by omega), decimalSize_le rows.1 (by decide) (by omega),
      decimalSize_le seq.1 (by decide) (by omega)⟩
  have least : ∀ n k, ((omitZero n).elim 0 fun v => k + 4 + v.size) ≤ k + 4 + decimalSize n := by
    intro n k
    unfold omitZero
    split <;> simp [Literal.size]
  have cs := least m.cols 4
  have rs := least m.rows 4
  have ss := least m.seq 3
  simp only [marshal, Field.all, List.map_cons, List.map_nil, List.sum_cons, List.sum_nil, memberSize, literal,
    omitEmpty, data, ticket, user, message, named, if_true, if_false, Option.elim_none, Option.elim_some,
    Literal.size_str, Field.nameSize, maxFrame]
  omega

/-- The agent reads an accepted input exactly if its data, with the encoder's escapes, leave room for the
envelope. -/
theorem forwarded_input_iff (f : Frame) (last : Nat) (decoded : decode f = .ok m)
    (valid : validateInput m last) (hid : id session) :
    (∃ sent, send { m with session := session } = some sent ∧
      decode sent = .ok { m with session := session }) ↔
    (m.type = input → byteSize (m.data.flatMap escape) + decimalSize m.seq ≤ maxFrame - 110) := by
  obtain ⟨limits, cols, rows, seq⟩ := decode_ok decoded
  simp only [validateInput, Bool.and_eq_true, decide_eq_true_eq] at valid
  obtain ⟨⟨ticket, user, message, next⟩, kind⟩ := valid
  have limits' : withinLimits { m with session := session } := by
    have total := (byteSize_id hid).2.1
    simp only [withinLimits, decide_eq_true_eq] at limits ⊢
    omega
  have sends : (∃ sent, send { m with session := session } = some sent ∧
      decode sent = .ok { m with session := session }) ↔ (marshal { m with session := session }).size ≤ maxFrame := by
    constructor
    · rintro ⟨sent, h, -⟩
      by_contra large
      simp [send, Nat.lt_of_not_le large] at h
    · intro fits
      exact ⟨_, if_neg (Nat.not_lt.mpr fits), decode_marshal cols rows seq limits' fits⟩
  rw [sends]
  by_cases type : m.type = input
  · simp only [if_pos type, decide_eq_true_eq] at kind
    rw [input_size hid type kind.1 ticket user message kind.2.2.1 kind.2.2.2 (by omega)]
    simp only [type, maxFrame, forall_true_left]
    omega
  · refine ⟨fun _ named => absurd named type, fun _ => ?_⟩
    simp only [if_neg type] at kind
    split at kind
    · rename_i resized
      simp only [Bool.and_eq_true, decide_eq_true_eq, size] at kind
      exact control_size hid (.inl resized) kind.1 ticket user message (by omega) (by omega) (by omega)
    · split at kind
      · rename_i closed
        simp only [decide_eq_true_eq] at kind
        exact control_size hid (.inr closed) kind.1 ticket user message (by omega) (by omega) (by omega)
      · cases kind

theorem letter_forwarded :
    (∃ sent, send { type := input, session := List.replicate 64 'a', data := ['x'], seq := 1 } = some sent ∧
      decode sent = .ok { type := input, session := List.replicate 64 'a', data := ['x'], seq := 1 }) :=
  (forwarded_input_iff (m := { type := input, data := ['x'], seq := 1 })
    (marshal { type := input, data := ['x'], seq := 1 }) 0 (by decide +kernel) (by decide +kernel)
    (by decide +kernel)).mpr (by decide +kernel)

theorem brackets_size (n : Nat) : byteSize (List.replicate n '<') = n ∧
    byteSize ((List.replicate n '<').flatMap escape) = 6 * n := by
  have one : byteSize (escape '<') = 6 := by decide
  induction n with
  | zero => simp [byteSize]
  | succ n ih =>
    simp only [List.replicate_succ, List.flatMap_cons, byteSize_append, one]
    simp only [byteSize, List.map_cons, List.sum_cons] at ih ⊢
    exact ⟨by rw [ih.1, show Char.utf8Size '<' = 1 by decide]; omega, by omega⟩

theorem brackets_read (n : Nat) : (units .plain (List.replicate n '<')).map join = some (List.replicate n '<') := by
  have read : units .plain (List.replicate n '<') = some (List.replicate n (.inl '<')) := by
    induction n with
    | zero => rfl
    | succ n ih => simp [List.replicate_succ, units, ih]
  rw [read, Option.map_some]
  congr 1
  induction n with
  | zero => rfl
  | succ n ih => simp_all [List.replicate_succ, join, units]

def brackets (n : Nat) : Frame where
  size := n + 34
  valid := true
  get
    | .type => some (.str (quote input))
    | .data => some (.str ('"' :: List.replicate n '<' ++ ['"']))
    | .seq => some (.int 1)
    | _ => none
  unknown := false

theorem brackets_refused {n : Nat} (low : 4078 ≤ n) (high : n ≤ 4096) :
    decode (brackets n) = .ok { type := input, data := List.replicate n '<', seq := 1 } ∧
    validateInput { type := input, data := List.replicate n '<', seq := 1 } 0 ∧
    send { type := input, session := List.replicate 64 'a', data := List.replicate n '<', seq := 1 } = none := by
  obtain ⟨plain, escaped⟩ := brackets_size n
  have some' : List.replicate n '<' ≠ [] := by simp; omega
  refine ⟨?_, ?_, ?_⟩
  · have data : unquote ('"' :: List.replicate n '<' ++ ['"']) = some (List.replicate n '<') := by
      simpa [unquote] using brackets_read n
    have read : fields (brackets n) = (unquote ('"' :: List.replicate n '<' ++ ['"'])).bind fun data =>
        some { type := input, data, seq := 1 } := rfl
    have kind : byteSize input = 5 := by decide
    have none : byteSize [] = 0 := rfl
    rw [decode, if_neg (by simp [maxFrame, brackets]; omega), read, data]
    simp [brackets, Field.all, withinLimits, plain, kind, none]
    omega
  · simp [validateInput, plain, maxInput, some', high]
  · refine if_pos ?_
    rw [input_size (m := { type := input, data := List.replicate n '<', seq := 1 }) (by decide +kernel) rfl some'
      rfl rfl rfl rfl rfl Int.one_ne_zero]
    dsimp only
    rw [escaped]
    simp only [maxFrame]
    omega

theorem brackets_not_forwarded :
    decode (brackets 4096) = .ok { type := input, data := List.replicate 4096 '<', seq := 1 } ∧
    validateInput { type := input, data := List.replicate 4096 '<', seq := 1 } 0 ∧
    send { type := input, session := List.replicate 64 'a', data := List.replicate 4096 '<', seq := 1 } = none :=
  brackets_refused (by decide) (by decide)

end Monik.ConsoleFrames
