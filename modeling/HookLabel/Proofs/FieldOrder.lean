import HookLabel.Proofs.ImportOrder
import HookLabel.Proofs.StableSort
import HookLabel.Tree.SourceOrder
import Mathlib.Data.List.Nodup

/-!
# Fields in source order

Taking the fields of a node in the order of its kind is sorting them stably by the place of their
names in that order (`inOrder_eq_sortBy`).  So a node that is built from named fields has the given
fields and reads as they do (`Tree.get_ofFields`); and where the order lists all of their names,
the node does not depend on how they were given (`Tree.ofFields_eq_of_perm`), and what is imported
below it is found field by field in that order (`Tree.bindings_ofFields`).
-/

namespace HookLabel

/-! ### The orders -/

/-- No order lists a field twice. -/
lemma fieldOrder_nodup (type : String) : (fieldOrder type).Nodup := by
  unfold fieldOrder
  split <;> decide

/-- No kind lists a field twice. -/
lemma Kind.fieldOrder_nodup (kind : Kind) : kind.fieldOrder.Nodup := by
  rw [Kind.fieldOrder]
  cases kind.name? with
  | none => exact (by decide : functionFields.Nodup)
  | some type => exact HookLabel.fieldOrder_nodup type

/-! ### Taking fields in an order -/

section InOrder

variable {order : List String}

/-- The fields of the first name come first, and those of other names follow in the order of the
other names. -/
lemma inOrder_cons {name : String} (hname : name ∉ order) (fs : Fields) :
    inOrder (name :: order) fs =
      fs.filter (fun f => f.1 == name) ++ inOrder order (fs.filter fun f => f.1 != name) := by
  have hlisted : ∀ n ∈ order, fs.filter (fun f => f.1 == n) =
      (fs.filter fun f => f.1 != name).filter fun f => f.1 == n := by
    intro n hn
    rw [List.filter_filter]
    refine List.filter_congr fun f _ => ?_
    by_cases hf : f.1 = n
    · have hne : f.1 ≠ name := fun h => hname (h ▸ hf ▸ hn)
      simp [hf, hf ▸ hne]
    · simp [hf]
  have hothers : fs.filter (fun f => !(name :: order).contains f.1) =
      (fs.filter fun f => f.1 != name).filter fun f => !order.contains f.1 := by
    rw [List.filter_filter]
    refine List.filter_congr fun f _ => ?_
    rw [List.contains_cons, Bool.not_or, Bool.and_comm]
    rfl
  rw [inOrder, inOrder, List.flatMap_cons, List.append_assoc, hothers,
    List.flatMap_congr hlisted]

/-- The place of a field in an order; fields that are not listed have the place behind the last. -/
abbrev placeIn (order : List String) (f : String × Tree) : Nat := order.idxOf f.1

/-- The fields of the first name are in the first place. -/
lemma placeIn_cons_of_eq {name : String} (order : List String) {f : String × Tree}
    (h : f.1 = name) : placeIn (name :: order) f = 0 := by
  rw [placeIn, h, List.idxOf_cons_self]

/-- Every other field is one place behind its place among the other names. -/
lemma placeIn_cons_of_ne {name : String} (order : List String) {f : String × Tree}
    (h : f.1 ≠ name) : placeIn (name :: order) f = placeIn order f + 1 :=
  List.idxOf_cons_ne order fun heq => h heq.symm

/-- Taking fields in an order keeps every one of them. -/
lemma inOrder_perm (horder : order.Nodup) (fs : Fields) : (inOrder order fs).Perm fs := by
  induction order generalizing fs with
  | nil => simp [inOrder]
  | cons name order ih =>
    rw [List.nodup_cons] at horder
    rw [inOrder_cons horder.1]
    exact ((ih horder.2 _).append_left _).trans (List.filter_append_perm _ fs)

/-- The fields that follow those of the first name have other names. -/
lemma ne_of_mem_inOrder_filter (horder : order.Nodup) {name : String} {fs : Fields}
    {f : String × Tree} (hf : f ∈ inOrder order (fs.filter fun f => f.1 != name)) :
    f.1 ≠ name := by
  have hmem := (inOrder_perm horder _).mem_iff.mp hf
  exact bne_iff_ne.mp (List.mem_filter.mp hmem).2

/-- Fields that are taken in an order stand in ascending places. -/
lemma pairwise_inOrder (horder : order.Nodup) (fs : Fields) :
    (inOrder order fs).Pairwise fun f g => placeIn order f ≤ placeIn order g := by
  induction order generalizing fs with
  | nil => exact List.pairwise_of_forall fun _ _ => Nat.le_refl _
  | cons name order ih =>
    rw [List.nodup_cons] at horder
    have hfirst : ∀ f ∈ fs.filter (fun f => f.1 == name), placeIn (name :: order) f = 0 :=
      fun f hf => placeIn_cons_of_eq order (beq_iff_eq.mp (List.mem_filter.mp hf).2)
    rw [inOrder_cons horder.1, List.pairwise_append]
    refine ⟨List.pairwise_of_forall_mem_list fun f hf g hg => ?_, ?_, fun f hf g _ => ?_⟩
    · exact Nat.le_of_eq ((hfirst f hf).trans (hfirst g hg).symm)
    · refine (ih horder.2 _).imp_of_mem fun {f g} hf hg hle => ?_
      rw [placeIn_cons_of_ne order (ne_of_mem_inOrder_filter horder.2 hf),
        placeIn_cons_of_ne order (ne_of_mem_inOrder_filter horder.2 hg)]
      exact Nat.succ_le_succ hle
    · rw [hfirst f hf]
      exact Nat.zero_le _

/-- The fields of any one place stay as they are. -/
lemma filter_inOrder (horder : order.Nodup) (fs : Fields) (k : Nat) :
    ((inOrder order fs).filter fun f => placeIn order f = k) =
      fs.filter fun f => placeIn order f = k := by
  induction order generalizing fs k with
  | nil => simp [inOrder]
  | cons name order ih =>
    rw [List.nodup_cons] at horder
    rw [inOrder_cons horder.1, List.filter_append]
    cases k with
    | zero =>
      have hlater : (inOrder order (fs.filter fun f => f.1 != name)).filter
          (fun f => placeIn (name :: order) f = 0) = [] := by
        refine List.filter_eq_nil_iff.mpr fun f hf => ?_
        rw [placeIn_cons_of_ne order (ne_of_mem_inOrder_filter horder.2 hf)]
        simp
      rw [hlater, List.append_nil, List.filter_filter]
      refine List.filter_congr fun f _ => ?_
      by_cases h : f.1 = name
      · simp [h, placeIn_cons_of_eq order h]
      · simp [placeIn_cons_of_ne order h]
    | succ k =>
      have hfirst : (fs.filter fun f => f.1 == name).filter
          (fun f => placeIn (name :: order) f = k + 1) = [] := by
        refine List.filter_eq_nil_iff.mpr fun f hf => ?_
        rw [placeIn_cons_of_eq order (beq_iff_eq.mp (List.mem_filter.mp hf).2)]
        simp
      have hlater : (inOrder order (fs.filter fun f => f.1 != name)).filter
          (fun f => placeIn (name :: order) f = k + 1) =
            (inOrder order (fs.filter fun f => f.1 != name)).filter
              fun f => placeIn order f = k := by
        refine List.filter_congr fun f hf => ?_
        rw [placeIn_cons_of_ne order (ne_of_mem_inOrder_filter horder.2 hf)]
        simp
      rw [hfirst, List.nil_append, hlater, ih horder.2, List.filter_filter]
      refine List.filter_congr fun f _ => ?_
      by_cases h : f.1 = name
      · simp [h, placeIn_cons_of_eq order h]
      · simp [h, placeIn_cons_of_ne order h]

/-- Taking fields in an order is sorting them stably by their places in it. -/
theorem inOrder_eq_sortBy (horder : order.Nodup) (fs : Fields) :
    inOrder order fs = sortBy (placeIn order) fs := by
  refine eq_of_filter_eq (pairwise_inOrder horder fs) (pairwise_sortBy _ fs) fun k => ?_
  rw [filter_inOrder horder, filter_sortBy]

/-! ### Reading fields that are taken in an order -/

/-- A field is read off the fields of its name. -/
lemma field_filter (name : String) (fs : Fields) :
    field name (fs.filter fun f => f.1 == name) = field name fs := by
  induction fs with
  | nil => rfl
  | cons f fs ih =>
    obtain ⟨n, t⟩ := f
    by_cases h : n = name
    · simp [field, h]
    · simp [field, h, ih]

/-- Fields read alike in any order. -/
theorem field_inOrder (horder : order.Nodup) (name : String) (fs : Fields) :
    field name (inOrder order fs) = field name fs := by
  have hname : ∀ gs : Fields, gs.filter (fun f => f.1 == name) =
      (gs.filter fun f => placeIn order f = order.idxOf name).filter fun f => f.1 == name := by
    intro gs
    rw [List.filter_filter]
    refine List.filter_congr fun f _ => ?_
    by_cases h : f.1 = name
    · simp [h, placeIn]
    · simp [h]
  rw [← field_filter name (inOrder order fs), hname, filter_inOrder horder, ← hname, field_filter]

/-- If no field is given twice, what is listed of the fields in an order is listed name by name; the
fields that the order does not name follow as they are given. -/
lemma flatMap_inOrder {β : Type} (g : Tree → List β) (hnull : g .null = []) {fs : Fields}
    (hnames : (fs.map Prod.fst).Nodup) :
    (inOrder order fs).flatMap (fun f => g f.2) =
      order.flatMap (fun name => g (field name fs)) ++
        (fs.filter fun f => !order.contains f.1).flatMap fun f => g f.2 := by
  have hfield : ∀ name, (fs.filter fun f => f.1 == name).flatMap (fun f => g f.2) =
      g (field name fs) := by
    intro name
    induction fs with
    | nil => exact hnull.symm
    | cons f fs ih =>
      obtain ⟨n, t⟩ := f
      rw [List.map_cons, List.nodup_cons] at hnames
      by_cases h : n = name
      · have hrest : fs.filter (fun f => f.1 == name) = [] := by
          refine List.filter_eq_nil_iff.mpr fun f hf heq => hnames.1 ?_
          exact List.mem_map.mpr ⟨f, hf, (beq_iff_eq.mp heq).trans h.symm⟩
        simp [field, h, hrest]
      · simp [field, h, ih hnames.2]
  rw [inOrder, List.flatMap_append, List.flatMap_assoc]
  exact congrArg (· ++ _) (List.flatMap_congr fun name _ => hfield name)

/-- Fields of which none is given twice and all are listed are brought in one order, however they
are given. -/
theorem inOrder_eq_of_perm (horder : order.Nodup) {fs gs : Fields}
    (hnames : (fs.map Prod.fst).Nodup) (hlisted : ∀ f ∈ fs, f.1 ∈ order) (h : fs.Perm gs) :
    inOrder order fs = inOrder order gs := by
  have hperm : (inOrder order fs).Perm (inOrder order gs) :=
    (inOrder_perm horder fs).trans (h.trans (inOrder_perm horder gs).symm)
  refine hperm.eq_of_pairwise (fun f g hf hg hle hge => ?_) (pairwise_inOrder horder fs)
    (pairwise_inOrder horder gs)
  have hf : f ∈ fs := (inOrder_perm horder fs).mem_iff.mp hf
  have hg : g ∈ fs := h.mem_iff.mpr ((inOrder_perm horder gs).mem_iff.mp hg)
  -- listed names are told apart by their places
  have hplace : placeIn order f = placeIn order g := Nat.le_antisymm hle hge
  have hname : f.1 = g.1 := (List.idxOf_inj (hlisted f hf)).mp hplace
  exact List.inj_on_of_nodup_map hnames hf hg hname

end InOrder

/-! ### Nodes that are built from their fields -/

namespace Tree

variable (type : Option String) (fs : Fields)

/-- A node that is built from named fields has the given type and the given fields, sorted stably by
their places in the order of its kind. -/
theorem exists_ofFields :
    ∃ kind : Kind, kind.name? = type ∧
      ofFields type fs = .node kind (sortBy (placeIn kind.fieldOrder) fs) := by
  refine ⟨(type.map Kind.ofName).getD .record, ?_, ?_⟩
  · cases type with
    | none => rfl
    | some name => exact Kind.name?_ofName name
  · rw [ofFields, inOrder_eq_sortBy (Kind.fieldOrder_nodup _)]

/-- It reads as the given fields do. -/
theorem get_ofFields (name : String) : (ofFields type fs).get name = field name fs :=
  field_inOrder (Kind.fieldOrder_nodup _) name fs

variable {type fs}

/-- If no field is given twice and the order of the kind lists them all, the node does not depend on
the order in which they are given. -/
theorem ofFields_eq_of_perm {kind : Kind} {gs : Fields} (hkind : ofFields type fs = .node kind gs)
    (hnames : (fs.map Prod.fst).Nodup) (hlisted : ∀ f ∈ fs, f.1 ∈ kind.fieldOrder)
    {hs : Fields} (h : fs.Perm hs) : ofFields type hs = ofFields type fs := by
  obtain ⟨rfl, -⟩ := Tree.node.inj hkind
  rw [ofFields, ofFields, inOrder_eq_of_perm (Kind.fieldOrder_nodup _) hnames hlisted h]

/-- What is imported below a node is found field by field, in the order of its kind. -/
theorem bindings_ofFields {kind : Kind} {gs : Fields} (hkind : ofFields type fs = .node kind gs)
    (himport : kind ≠ .importDeclaration) (hnames : (fs.map Prod.fst).Nodup) :
    (ofFields type fs).bindings =
      kind.fieldOrder.flatMap (fun name => (field name fs).bindings) ++
        (fs.filter fun f => !kind.fieldOrder.contains f.1).flatMap fun f => f.2.bindings := by
  have hlist : ∀ fs : Fields, bindingsOfFields fs = fs.flatMap fun f => f.2.bindings := by
    intro fs
    rw [bindingsOfFields_eq, List.map_map, ← List.flatMap_def]
    rfl
  obtain ⟨rfl, -⟩ := Tree.node.inj hkind
  rw [ofFields, bindings_node himport, hlist, flatMap_inOrder bindings (by simp [bindings]) hnames]

end Tree

end HookLabel
