import Mathlib.Logic.Equiv.List
import Mathlib.Tactic.DeriveEncodable

/-! Texts for the values of an encodable type: each is read back, and none is empty. -/

namespace Monik.EncodedText

variable {α : Type*} [Encodable α]

instance encodableString : Encodable String :=
  Encodable.ofLeftInverse (fun s => s.toList.map Char.toNat) (fun l => String.ofList (l.map Char.ofNat))
    fun s => by simp [Function.comp_def]

@[irreducible] def marshal (x : α) : String := String.ofList (List.replicate (Encodable.encode x + 1) '1')

def unmarshal (text : String) : Option α := Encodable.decode (text.length - 1)

theorem unmarshal_marshal (x : α) : unmarshal (marshal x) = some x := by simp [unmarshal, marshal]

theorem marshal_ne_empty (x : α) : marshal x ≠ "" := by
  intro h
  simpa [marshal] using congrArg String.length h

end Monik.EncodedText
