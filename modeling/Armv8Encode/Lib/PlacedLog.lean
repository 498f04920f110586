/-
  Armv8Encode.Lib.PlacedLog — pieces written at offsets of a growing buffer.

  Each piece is written at the end of the buffer, which is cut where the piece
  starts, or filled up to there.  A piece stays until a later one starts before
  its end.
-/
import Mathlib.Data.List.Infix

namespace Armv8Encode.Lib

variable {α ε : Type*}

/-- The piece is in the buffer from an offset on. -/
def PieceAt (buffer : List α) (offset : Nat) (piece : List α) : Prop :=
  ∃ before, before.length = offset ∧ before ++ piece <+: buffer

theorem PieceAt.grow {buffer buffer' piece : List α} {offset : Nat}
    (h : PieceAt buffer offset piece) (hgrow : buffer <+: buffer') :
    PieceAt buffer' offset piece := by
  obtain ⟨before, hlength, hpre⟩ := h
  exact ⟨before, hlength, hpre.trans hgrow⟩

theorem PieceAt.take {buffer piece : List α} {offset n : Nat} (h : PieceAt buffer offset piece)
    (hn : offset + piece.length ≤ n) : PieceAt (buffer.take n) offset piece := by
  obtain ⟨before, hlength, hpre⟩ := h
  refine ⟨before, hlength, List.prefix_take_iff.mpr ⟨hpre, ?_⟩⟩
  rw [List.length_append, hlength]
  exact hn

/-- Every entry of the log is in the buffer, unless a later one starts before
its end. -/
def Standing (start : ε → Nat) (piece : ε → List α) (buffer : List α) (log : List ε) : Prop :=
  ∀ before e after, log = before ++ e :: after →
    (∀ later ∈ after, start e + (piece e).length ≤ start later) →
    PieceAt buffer (start e) (piece e)

variable {start : ε → Nat} {piece : ε → List α} {buffer buffer' : List α} {log : List ε}

theorem Standing.grow (h : Standing start piece buffer log) (hgrow : buffer <+: buffer') :
    Standing start piece buffer' log :=
  fun before e after hlog hlater => (h before e after hlog hlater).grow hgrow

/-- Cut the buffer where the next entry starts, or fill it up to there, and
write the entry. -/
theorem Standing.place (h : Standing start piece buffer log) (e : ε) {cut : List α}
    (hlength : cut.length = start e) (hcut : buffer.take (start e) <+: cut) :
    Standing start piece (cut ++ piece e) (log ++ [e]) := by
  intro before e' after hlog hlater
  obtain rfl | ⟨earlier, last, rfl⟩ := List.eq_nil_or_concat after
  · obtain ⟨-, hsame⟩ := List.append_inj' hlog rfl
    obtain rfl := List.singleton_inj.mp hsame
    exact ⟨cut, hlength, List.prefix_refl _⟩
  · rw [List.concat_eq_append, ← List.cons_append, ← List.append_assoc] at hlog
    obtain ⟨hold, hsame⟩ := List.append_inj' hlog rfl
    obtain rfl := List.singleton_inj.mp hsame
    have hstand := h before e' earlier hold fun later hmem =>
      hlater later (by rw [List.concat_eq_append]; exact List.mem_append_left _ hmem)
    have hend := hlater e (by
      rw [List.concat_eq_append]
      exact List.mem_append_right _ (List.mem_singleton_self e))
    exact (hstand.take hend).grow (hcut.trans (List.prefix_append cut (piece e)))

end Armv8Encode.Lib
