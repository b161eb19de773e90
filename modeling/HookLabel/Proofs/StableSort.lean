import Mathlib.Data.List.Basic
import Mathlib.Order.Basic
import Mathlib.Tactic.Lemma

/-!
# Stable sorting by a key

`sortBy key` sorts a list by a number that each entry has, and leaves entries of one number in their
order.  Sorted lists with the same entries of every key, in the same order, are equal
(`eq_of_filter_eq`); the other laws are read off that.
-/

namespace HookLabel

variable {α : Type} (key : α → Nat)

/-- The entries of a list in the order of their keys; those of one key stay in their order. -/
def sortBy (l : List α) : List α := l.mergeSort fun a b => key a ≤ key b

/-- The comparison of keys, as the library takes it. -/
private lemma key_le_trans (a b c : α) (hab : decide (key a ≤ key b) = true)
    (hbc : decide (key b ≤ key c) = true) : decide (key a ≤ key c) = true := by
  rw [decide_eq_true_eq] at hab hbc ⊢
  exact Nat.le_trans hab hbc

/-- Any two keys compare one way or the other. -/
private lemma key_le_total (a b : α) :
    (decide (key a ≤ key b) || decide (key b ≤ key a)) = true := by
  rw [Bool.or_eq_true, decide_eq_true_eq, decide_eq_true_eq]
  exact Nat.le_total (key a) (key b)

/-- Sorting keeps the entries. -/
lemma sortBy_perm (l : List α) : (sortBy key l).Perm l := List.mergeSort_perm l _

/-- Sorting brings the keys in order. -/
lemma pairwise_sortBy (l : List α) : (sortBy key l).Pairwise fun a b => key a ≤ key b := by
  have hsorted := List.pairwise_mergeSort (key_le_trans key) (key_le_total key) l
  exact hsorted.imp of_decide_eq_true

/-- Sorting keeps the list of the entries of any one key. -/
lemma filter_sortBy (l : List α) (k : Nat) :
    ((sortBy key l).filter fun a => key a = k) = l.filter fun a => key a = k := by
  have hlevel : (l.filter fun a => key a = k).Pairwise
      fun a b => decide (key a ≤ key b) = true := by
    refine List.pairwise_of_forall_mem_list fun a ha b hb => ?_
    have hka : key a = k := of_decide_eq_true (List.mem_filter.mp ha).2
    have hkb : key b = k := of_decide_eq_true (List.mem_filter.mp hb).2
    exact decide_eq_true (Nat.le_of_eq (hka.trans hkb.symm))
  have hsub : (l.filter fun a => key a = k).Sublist (sortBy key l) :=
    List.sublist_mergeSort (key_le_trans key) (key_le_total key) hlevel List.filter_sublist
  have hfilter : (l.filter fun a => key a = k).Sublist
      ((sortBy key l).filter fun a => key a = k) := by
    have hsub := hsub.filter fun a => decide (key a = k)
    rwa [List.filter_filter, funext fun a => Bool.and_self (decide (key a = k))] at hsub
  exact (hfilter.eq_of_length ((sortBy_perm key l).filter _).length_eq.symm).symm

variable {key}

/-- Sorted lists with the same entries of every key, in the same order, are equal. -/
lemma eq_of_filter_eq {l l' : List α} (h : l.Pairwise fun a b => key a ≤ key b)
    (h' : l'.Pairwise fun a b => key a ≤ key b)
    (hfilter : ∀ k, (l.filter fun a => key a = k) = l'.filter fun a => key a = k) : l = l' := by
  have hmem : ∀ a, a ∈ l ↔ a ∈ l' := by
    intro a
    have hiff := congrArg (a ∈ ·) (hfilter (key a))
    simpa using hiff
  induction l generalizing l' with
  | nil => exact (List.eq_nil_iff_forall_not_mem.mpr fun a ha => nomatch (hmem a).mpr ha).symm
  | cons a l ih =>
    cases l' with
    | nil => exact nomatch (hmem a).mp List.mem_cons_self
    | cons b l' =>
      rw [List.pairwise_cons] at h h'
      -- both heads have the least key, so they are the first entries of that key
      have hle : key a ≤ key b := by
        rcases List.mem_cons.mp ((hmem b).mpr List.mem_cons_self) with hb | hb
        · exact Nat.le_of_eq (congrArg key hb.symm)
        · exact h.1 b hb
      have hge : key b ≤ key a := by
        rcases List.mem_cons.mp ((hmem a).mp List.mem_cons_self) with ha | ha
        · exact Nat.le_of_eq (congrArg key ha.symm)
        · exact h'.1 a ha
      have hkey : key b = key a := Nat.le_antisymm hge hle
      have hheads := hfilter (key a)
      rw [List.filter_cons, List.filter_cons, if_pos (decide_eq_true rfl),
        if_pos (decide_eq_true hkey)] at hheads
      obtain ⟨rfl, -⟩ := List.cons.inj hheads
      have htails : ∀ k, (l.filter fun a => key a = k) = l'.filter fun a => key a = k := by
        intro k
        have hk := hfilter k
        rw [List.filter_cons, List.filter_cons] at hk
        split at hk
        · exact (List.cons.inj hk).2
        · exact hk
      have htailsMem : ∀ c, c ∈ l ↔ c ∈ l' := by
        intro c
        have hiff := congrArg (c ∈ ·) (htails (key c))
        simpa using hiff
      rw [ih h.2 h'.2 htails htailsMem]

/-- Entries of the least key come first, whatever stands before them. -/
lemma sortBy_append_least {front least back : List α} {k : Nat} (hleast : ∀ a ∈ least, key a = k)
    (hfront : ∀ a ∈ front, k < key a) (hback : ∀ a ∈ back, k ≤ key a) :
    sortBy key (front ++ least ++ back) = least ++ sortBy key (front ++ back) := by
  refine eq_of_filter_eq (pairwise_sortBy key _) ?_ fun j => ?_
  · rw [List.pairwise_append]
    refine ⟨List.pairwise_of_forall_mem_list fun a ha b hb => ?_, pairwise_sortBy key _, ?_⟩
    · exact Nat.le_of_eq ((hleast a ha).trans (hleast b hb).symm)
    · intro a ha b hb
      rw [hleast a ha]
      rcases List.mem_append.mp ((sortBy_perm key _).mem_iff.mp hb) with hb | hb
      · exact Nat.le_of_lt (hfront b hb)
      · exact hback b hb
  · rw [filter_sortBy, List.filter_append, List.filter_append, List.filter_append, filter_sortBy,
      List.filter_append]
    by_cases hj : j = k
    · have hnone : (front.filter fun a => key a = j) = [] :=
        List.filter_eq_nil_iff.mpr fun a ha h => by
          have := hfront a ha
          have := of_decide_eq_true h
          omega
      rw [hnone, List.nil_append, List.nil_append]
    · have hnone : (least.filter fun a => key a = j) = [] :=
        List.filter_eq_nil_iff.mpr fun a ha h => hj ((of_decide_eq_true h).symm.trans (hleast a ha))
      rw [hnone, List.nil_append, List.append_nil]

/-- The first entry of a sorted list is the leftmost one with the least key. -/
lemma head?_sortBy_eq_some_iff {l : List α} {a : α} :
    (sortBy key l).head? = some a ↔
      ∃ before after, l = before ++ a :: after ∧ (∀ b ∈ before, key a < key b) ∧
        ∀ b ∈ after, key a ≤ key b := by
  constructor
  · intro h
    obtain ⟨later, hlater⟩ := List.head?_eq_some_iff.mp h
    have hsorted := pairwise_sortBy key l
    rw [hlater, List.pairwise_cons] at hsorted
    have hle : ∀ b ∈ l, key a ≤ key b := by
      intro b hb
      have hb : b ∈ a :: later := hlater ▸ (sortBy_perm key l).mem_iff.mpr hb
      rcases List.mem_cons.mp hb with rfl | hb
      · exact Nat.le_refl _
      · exact hsorted.1 b hb
    have hfirst := filter_sortBy key l (key a)
    rw [hlater, List.filter_cons, if_pos (decide_eq_true rfl)] at hfirst
    obtain ⟨before, after, rfl, hbefore, -, -⟩ := List.filter_eq_cons_iff.mp hfirst.symm
    refine ⟨before, after, rfl, fun b hb => ?_, fun b hb => ?_⟩
    · have hne : key b ≠ key a := fun h => hbefore b hb (decide_eq_true h)
      have := hle b (List.mem_append_left _ hb)
      omega
    · exact hle b (List.mem_append_right _ (List.mem_cons_of_mem a hb))
  · rintro ⟨before, after, rfl, hbefore, hafter⟩
    have hsorted : sortBy key (before ++ [a] ++ after) = [a] ++ sortBy key (before ++ after) :=
      sortBy_append_least (k := key a) (by simp) hbefore hafter
    rw [List.append_assoc, List.singleton_append] at hsorted
    rw [hsorted]
    rfl

/-- Selecting by the key keeps all entries of a key or none. -/
lemma filter_filter_key (p : Nat → Prop) [DecidablePred p] (l : List α) (k : Nat) :
    ((l.filter fun a => p (key a)).filter fun a => key a = k) =
      if p k then l.filter fun a => key a = k else [] := by
  rw [List.filter_filter]
  by_cases hk : p k
  · rw [if_pos hk]
    refine List.filter_congr fun a _ => ?_
    by_cases ha : key a = k
    · simp [ha, hk]
    · simp [ha]
  · rw [if_neg hk, List.filter_eq_nil_iff]
    intro a _ ha
    rw [Bool.and_eq_true, decide_eq_true_eq, decide_eq_true_eq] at ha
    exact hk (ha.1 ▸ ha.2)

/-- A list that holds what two lists hold, of which the first has the lesser keys, is sorted by
sorting each of the two. -/
lemma sortBy_eq_append {l low high : List α} (hle : ∀ a ∈ low, ∀ b ∈ high, key a ≤ key b)
    (hfilter : ∀ k, ((low ++ high).filter fun a => key a = k) = l.filter fun a => key a = k) :
    sortBy key l = sortBy key low ++ sortBy key high := by
  refine eq_of_filter_eq (pairwise_sortBy key l) ?_ fun k => ?_
  · rw [List.pairwise_append]
    refine ⟨pairwise_sortBy key low, pairwise_sortBy key high, fun a ha b hb => ?_⟩
    exact hle a ((sortBy_perm key low).mem_iff.mp ha) b ((sortBy_perm key high).mem_iff.mp hb)
  · rw [filter_sortBy, List.filter_append, filter_sortBy, filter_sortBy, ← List.filter_append,
      hfilter]

/-- One more entry, wherever it stands, leaves the order of the others. -/
lemma exists_sortBy_insert (before after : List α) (a : α) :
    ∃ front back, sortBy key (before ++ after) = front ++ back ∧
      sortBy key (before ++ a :: after) = front ++ a :: back := by
  -- of the entries with its key, those that stand before it stay before it
  let low := (before.filter fun b => key b ≤ key a) ++ after.filter fun b => key b < key a
  let high := (before.filter fun b => key a < key b) ++ after.filter fun b => key a ≤ key b
  have hlow : ∀ b ∈ low, key b ≤ key a := by
    intro b hb
    rcases List.mem_append.mp hb with hb | hb
    · exact of_decide_eq_true (List.mem_filter.mp hb).2
    · exact Nat.le_of_lt (of_decide_eq_true (List.mem_filter.mp hb).2)
  have hhigh : ∀ b ∈ high, key a ≤ key b := by
    intro b hb
    rcases List.mem_append.mp hb with hb | hb
    · exact Nat.le_of_lt (of_decide_eq_true (List.mem_filter.mp hb).2)
    · exact of_decide_eq_true (List.mem_filter.mp hb).2
  have hsplit : ∀ least, (∀ b ∈ least, key b = key a) →
      sortBy key (before ++ (least ++ after)) = sortBy key low ++ sortBy key (least ++ high) := by
    intro least hleast
    refine sortBy_eq_append (fun b hb c hc => ?_) fun k => ?_
    · rcases List.mem_append.mp hc with hc | hc
      · exact hleast c hc ▸ hlow b hb
      · exact Nat.le_trans (hlow b hb) (hhigh c hc)
    · have hnone : k ≠ key a → (least.filter fun b => key b = k) = [] := fun hk =>
        List.filter_eq_nil_iff.mpr fun b hb h => hk ((of_decide_eq_true h).symm.trans (hleast b hb))
      simp only [low, high, List.filter_append, filter_filter_key (fun n => n ≤ key a),
        filter_filter_key (fun n => n < key a), filter_filter_key (fun n => key a < n),
        filter_filter_key (fun n => key a ≤ n)]
      rcases Nat.lt_trichotomy k (key a) with hk | rfl | hk
      · simp [hk, Nat.le_of_lt hk, Nat.not_lt_of_gt hk, Nat.not_le_of_gt hk,
          hnone (Nat.ne_of_lt hk)]
      · simp
      · simp [hk, Nat.le_of_lt hk, Nat.not_lt_of_gt hk, Nat.not_le_of_gt hk,
          hnone (Nat.ne_of_gt hk)]
  have hfirst : sortBy key ([] ++ [a] ++ high) = [a] ++ sortBy key ([] ++ high) :=
    sortBy_append_least (by simp) nofun hhigh
  refine ⟨sortBy key low, sortBy key high, hsplit [] nofun, ?_⟩
  rw [← List.singleton_append, hsplit [a] (by simp)]
  exact congrArg (sortBy key low ++ ·) hfirst

end HookLabel
