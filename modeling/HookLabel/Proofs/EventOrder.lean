import HookLabel.Event
import Mathlib.Data.String.Basic
import Mathlib.Tactic.Lemma

/-!
# The order in which events are shown

Events are shown in the linear order of their keys (`before_iff`), so two lists with the same events
are shown alike as long as no two different events among them have the same key
(`sorted_eq_of_perm`).  Only imports share a key: what is reported about a hook call is told by its
key (`eq_of_sortKey_eq`).
-/

namespace HookLabel

/-- Hooks are told apart by their names. -/
lemma Hook.name_injective : Function.Injective Hook.name := by
  intro hook hook' hnames
  have hread := congrArg Hook.ofName? hnames
  rwa [ofName?_name, ofName?_name, Option.some_inj] at hread

namespace Event

/-! ### Keys in their linear order -/

/-- Texts are compared in their linear order. -/
lemma textBefore_iff (s t : String) : textBefore s t = true ↔ s < t := by
  have hchar : (fun c d : Char => decide (c.toNat < d.toNat) = true) = (· < ·) := by
    funext c d
    exact propext decide_eq_true_iff
  rw [textBefore, List.lex_eq_true_iff_lex, hchar, String.lt_iff_toList_lt]
  exact Iff.rfl

/-- Events are compared in the linear order of their keys. -/
lemma before_iff (a b : Event) : a.before b = true ↔ a.sortKey < b.sortKey := by
  have htext : (fun s t : String => textBefore s t = true) = (· < ·) := by
    funext s t
    exact propext (textBefore_iff s t)
  rw [before, List.lex_eq_true_iff_lex, htext]
  exact Iff.rfl

/-- What is reported about a hook call is told by its key: the message tells the kind of report, and
the rest the hook and the label. -/
lemma eq_of_sortKey_eq {a b : Event} (ha : a.hook?.isSome) (h : a.sortKey = b.sortKey) : a = b := by
  have hmessage : a.message = b.message := (List.cons.inj h).1
  cases a with
  | labelled hook label =>
    cases b with
    | labelled hook' label' =>
      have hparts : hook.name = hook'.name ∧ label = label' := by
        simpa [sortKey, hook?, label?, message] using h
      rw [Hook.name_injective hparts.1, hparts.2]
    | leftUnbound hook' | imported count source => simp [message] at hmessage
  | leftUnbound hook =>
    cases b with
    | leftUnbound hook' =>
      have hname : hook.name = hook'.name := by
        simpa [sortKey, hook?, label?, message] using h
      rw [Hook.name_injective hname]
    | labelled hook' label' | imported count source => simp [message] at hmessage
  | imported count source => cases ha

/-- No event is shown before one with a smaller key. -/
lemma pairwise_sorted (es : List Event) :
    (sorted es).Pairwise fun a b => a.sortKey ≤ b.sortKey := by
  have hle : ∀ a b : Event, (!b.before a) = true ↔ a.sortKey ≤ b.sortKey := by
    intro a b
    rw [Bool.not_eq_true', ← Bool.not_eq_true, before_iff, not_lt]
  have htrans : ∀ a b c : Event, (!b.before a) = true → (!c.before b) = true →
      (!c.before a) = true := by
    intro a b c hab hbc
    rw [hle] at hab hbc ⊢
    exact le_trans hab hbc
  have htotal : ∀ a b : Event, (!b.before a || !a.before b) = true := by
    intro a b
    rw [Bool.or_eq_true, hle, hle]
    exact le_total a.sortKey b.sortKey
  exact (List.pairwise_mergeSort htrans htotal es).imp fun h => (hle _ _).mp h

/-- Lists with the same events are shown alike if no two different events share a key. -/
theorem sorted_eq_of_perm {es es' : List Event} (hperm : es.Perm es')
    (hkey : ∀ a ∈ es, ∀ b ∈ es, a.sortKey = b.sortKey → a = b) : sorted es = sorted es' := by
  have hes : (sorted es).Perm es := List.mergeSort_perm es _
  have hes' : (sorted es').Perm es' := List.mergeSort_perm es' _
  refine List.Perm.eq_of_pairwise (fun a b ha hb hab hba => ?_) (pairwise_sorted es)
    (pairwise_sorted es') (hes.trans (hperm.trans hes'.symm))
  have hb : b ∈ es := hperm.mem_iff.mpr (hes'.mem_iff.mp hb)
  exact hkey a (hes.mem_iff.mp ha) b hb (le_antisymm hab hba)

end Event

end HookLabel
