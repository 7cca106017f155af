import Mathlib.Algebra.GroupWithZero.Nat
import Mathlib.Data.List.Basic

/-! String literals of JSON as encoding/json writes them, with `<`, `>`, `&` and the two line
separators escaped, and as it reads them back. -/

namespace Monik.JsonText

def hexDigit (n : Nat) : Char := Char.ofNat (if n < 10 then 48 + n else 87 + n)

def hexValue (c : Char) : Option Nat :=
  if '0' ≤ c ∧ c ≤ '9' then some (c.toNat - 48)
  else if 'a' ≤ c ∧ c ≤ 'f' then some (c.toNat - 87)
  else if 'A' ≤ c ∧ c ≤ 'F' then some (c.toNat - 55)
  else none

def short : List (Char × Char) :=
  [('"', '"'), ('\\', '\\'), ('b', '\x08'), ('f', '\x0c'), ('n', '\n'), ('r', '\r'), ('t', '\t')]

def long (c : Char) : Bool :=
  decide (c.toNat < 32) || ['<', '>', '&', '\u2028', '\u2029'].contains c

def escape (c : Char) : List Char :=
  match short.find? fun e => e.2 == c with
  | some e => ['\\', e.1]
  | none =>
    if long c then '\\' :: 'u' :: [c.toNat / 4096, c.toNat / 256 % 16, c.toNat / 16 % 16, c.toNat % 16].map hexDigit
    else [c]

def quote (s : List Char) : List Char := '"' :: s.flatMap escape ++ ['"']

inductive Mode
  | plain
  | escaped
  | hex (left value : Nat)

def units : Mode → List Char → Option (List (Char ⊕ Nat))
  | .plain, [] => some []
  | _, [] => none
  | .plain, c :: cs =>
    if c = '\\' then units .escaped cs
    else if c = '"' ∨ c.toNat < 32 then none
    else (units .plain cs).map (.inl c :: ·)
  | .escaped, c :: cs =>
    if c = 'u' then units (.hex 3 0) cs
    else if c = '/' then (units .plain cs).map (.inl c :: ·)
    else (short.find? fun e => e.1 == c).elim none fun e => (units .plain cs).map (.inl e.2 :: ·)
  | .hex left value, c :: cs =>
    (hexValue c).elim none fun v =>
      if left = 0 then (units .plain cs).map (.inr (16 * value + v) :: ·)
      else units (.hex (left - 1) (16 * value + v)) cs

def join : List (Char ⊕ Nat) → List Char
  | [] => []
  | .inl c :: rest => c :: join rest
  | .inr hi :: .inr lo :: rest =>
    if 0xD800 ≤ hi ∧ hi < 0xDC00 ∧ 0xDC00 ≤ lo ∧ lo < 0xE000 then
      Char.ofNat (0x10000 + (hi - 0xD800) * 1024 + (lo - 0xDC00)) :: join rest
    else if 0xD800 ≤ hi ∧ hi < 0xE000 then '�' :: join (.inr lo :: rest)
    else Char.ofNat hi :: join (.inr lo :: rest)
  | .inr n :: rest => (if 0xD800 ≤ n ∧ n < 0xE000 then '�' else Char.ofNat n) :: join rest

def unquote : List Char → Option (List Char)
  | '"' :: rest => if rest.getLast? = some '"' then (units .plain rest.dropLast).map join else none
  | _ => none

def byteSize (s : List Char) : Nat := (s.map Char.utf8Size).sum

def decimalSize (n : Int) : Nat := (if n < 0 then 1 else 0) + (Nat.toDigits 10 n.natAbs).length

theorem join_unit (c : Char) (rest : List (Char ⊕ Nat)) : join (.inr c.toNat :: rest) = c :: join rest := by
  have valid : c.toNat < 0xD800 ∨ 0xDFFF < c.toNat ∧ c.toNat < 0x110000 := c.valid
  cases rest with
  | nil => simp [join, show ¬(0xD800 ≤ c.toNat ∧ c.toNat < 0xE000) by omega]
  | cons u rest =>
    cases u with
    | inl d => simp [join, show ¬(0xD800 ≤ c.toNat ∧ c.toNat < 0xE000) by omega]
    | inr lo =>
      rw [join, if_neg (by omega), if_neg (by omega), Char.ofNat_toNat]

theorem hexValue_hexDigit {n : Nat} (h : n < 16) : hexValue (hexDigit n) = some n := by
  decide +revert

theorem units_short {e : Char × Char} (mem : e ∈ short) (rest : List Char) :
    units .escaped (e.1 :: rest) = (units .plain rest).map (.inl e.2 :: ·) := by
  simp only [short, List.mem_cons, List.not_mem_nil, or_false] at mem
  rcases mem with rfl | rfl | rfl | rfl | rfl | rfl | rfl <;> simp [units, short]

theorem units_long {c : Char} (h : c.toNat < 65536) (rest : List Char) :
    units .escaped ('u' :: [c.toNat / 4096, c.toNat / 256 % 16, c.toNat / 16 % 16, c.toNat % 16].map hexDigit
      ++ rest) = (units .plain rest).map (.inr c.toNat :: ·) := by
  have joined : 16 * (16 * (16 * (c.toNat / 4096) + c.toNat / 256 % 16) + c.toNat / 16 % 16) + c.toNat % 16
      = c.toNat := by omega
  simp only [List.map_cons, List.map_nil, List.cons_append, List.nil_append, units, if_true,
    hexValue_hexDigit (show c.toNat / 4096 < 16 by omega), hexValue_hexDigit (show c.toNat / 256 % 16 < 16 by omega),
    hexValue_hexDigit (show c.toNat / 16 % 16 < 16 by omega), hexValue_hexDigit (show c.toNat % 16 < 16 by omega),
    Option.elim_some]
  simp [joined]

/-- What is written for one character is read as one unit that stands for it. -/
theorem units_escape (c : Char) (rest : List Char) : ∃ u, (∀ us, join (u :: us) = c :: join us) ∧
      units .plain (escape c ++ rest) = (units .plain rest).map (u :: ·) := by
  unfold escape
  cases found : short.find? fun e => e.2 == c with
  | some e =>
    have named : e.2 = c := by simpa using List.find?_some found
    refine ⟨.inl c, fun us => rfl, ?_⟩
    simpa [units, named] using units_short (List.mem_of_find?_eq_some found) rest
  | none =>
    by_cases wide : long c = true
    · have small : c.toNat < 65536 := by
        simp only [long, Bool.or_eq_true, decide_eq_true_eq, List.contains_eq_mem] at wide
        rcases wide with low | mem
        · omega
        · revert mem
          simp
          rintro (rfl | rfl | rfl | rfl | rfl) <;> decide
      refine ⟨.inr c.toNat, join_unit c, ?_⟩
      simpa [wide, units] using units_long small rest
    · have high : ¬c.toNat < 32 := by simp_all [long]
      have special := List.find?_eq_none.mp found
      have quoted : c ≠ '"' := fun same => by simp [short, same] at special
      have slash : c ≠ '\\' := fun same => by simp [short, same] at special
      refine ⟨.inl c, fun us => rfl, ?_⟩
      simp [wide, units, high, quoted, slash]

theorem units_flatMap (s : List Char) : ∃ us, units .plain (s.flatMap escape) = some us ∧ join us = s := by
  induction s with
  | nil => exact ⟨[], rfl, rfl⟩
  | cons c s ih =>
    obtain ⟨us, read, same⟩ := ih
    obtain ⟨u, stands, first⟩ := units_escape c (s.flatMap escape)
    refine ⟨u :: us, ?_, ?_⟩
    · rw [List.flatMap_cons, first, read, Option.map_some]
    · rw [stands, same]

theorem unquote_quote (s : List Char) : unquote (quote s) = some s := by
  obtain ⟨us, read, same⟩ := units_flatMap s
  simp [unquote, quote, read, same]

theorem byteSize_quote (s : List Char) : byteSize (quote s) = byteSize (s.flatMap escape) + 2 := by
  simp [quote, byteSize, Char.utf8Size]
  omega

theorem byteSize_append (s t : List Char) : byteSize (s ++ t) = byteSize s + byteSize t := by
  simp [byteSize]

theorem decimalSize_le {n : Int} (low : 0 ≤ n) {k : Nat} (pos : 0 < k) (high : n.natAbs < 10 ^ k) :
    decimalSize n ≤ k := by
  have digits := (Nat.length_toDigits_le_iff (by decide : 1 < 10) pos).mpr high
  simp only [decimalSize, if_neg (show ¬n < 0 by omega)]
  omega

theorem byteSize_plain {s : List Char} (plain : ∀ c ∈ s, escape c = [c]) :
    byteSize (quote s) = byteSize s + 2 := by
  rw [byteSize_quote, List.flatMap_congr plain, List.flatMap_singleton']

end Monik.JsonText
