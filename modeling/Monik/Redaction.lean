import Mathlib.Algebra.Order.BigOperators.Group.List
import Mathlib.Algebra.Order.Group.Nat
import Mathlib.Data.List.Infix
import Monik.LogBatches

/-! `Redactor.Clean` of `spark/logs.go`. `strings.NewReplacer` replaces at the leftmost position and
prefers earlier arguments. Where each character of a normalized line goes is `cleaned`, with the
characters that the regular expressions after the replacer replace as `mask`. -/

namespace Monik.Redaction
open JsonText LogBatches

/-- A part of the line: one character that is copied, or the span of a replaced secret. -/
inductive Item
  | copied (i : Nat) (c : Char)
  | replaced (start stop : Nat)

variable (secrets : List (List Char))

/-- The replacer at position `i`, with so many characters of the last match still to pass. -/
def scan (i : Nat) : Nat → List Char → List Item
  | _, [] => []
  | n + 1, _ :: rest => scan (i + 1) n rest
  | 0, c :: rest =>
    match secrets.find? fun w => w.isPrefixOf (c :: rest) with
    | some w => .replaced i (i + w.length) :: scan (i + 1) (w.length - 1) rest
    | none => .copied i c :: scan (i + 1) 0 rest

def Item.text : Item → List (Char × Option Nat)
  | .copied i c => [(c, some i)]
  | .replaced _ _ => ['[', 'r', 'e', 'd', 'a', 'c', 't', 'e', 'd', ']'].map (·, none)

/-- What a `Redactor` runs beside the replacer: `strings.ToValidUTF8`, the expression that removes ANSI
sequences, and the two that replace credentials. -/
structure Redactor where
  secrets : List (List Char)
  toValidUTF8 : Bytes → List Char
  ansi : List Char → List Char
  removes : ∀ s, (ansi s).Sublist s
  credentialPattern : List Char → List Char
  tokenPattern : List Char → List Char

def Redactor.clean (r : Redactor) (line : Bytes) : List Char :=
  if logMaxLine < line.length then "[oversized log record dropped]".toList
  else
    let s := stripControl (r.ansi (r.toValidUTF8 line))
    if logMaxLine < byteSize s then "[oversized normalized record dropped]".toList
    else
      let items := scan (r.secrets.filter (!·.isEmpty)) 0 0 s
      let s := (items.flatMap Item.text).map Prod.fst
      if logMaxLine < byteSize s then "[oversized sanitized record dropped]".toList
      else
        let s := r.tokenPattern (r.credentialPattern s)
        if logMaxLine < byteSize s then "[oversized sanitized record dropped]".toList
        else stripControl (r.ansi s)

theorem stripped_shorter (r : Redactor) (s : List Char) :
    byteSize (stripControl (r.ansi s)) ≤ byteSize s :=
  ((List.filter_sublist.trans (r.removes s)).map _).sum_le_sum (by simp)

theorem clean_bounded (r : Redactor) (line : Bytes) : byteSize (r.clean line) ≤ logMaxLine := by
  unfold Redactor.clean
  split
  · decide
  dsimp only
  split
  · decide
  split
  · decide
  split
  · decide
  · rename_i short
    exact (stripped_shorter r _).trans (Nat.le_of_not_lt short)

variable {secrets} {i n : Nat} {line : List Char}

end Monik.Redaction
