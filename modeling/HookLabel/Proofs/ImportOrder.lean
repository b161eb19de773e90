import HookLabel.Proofs.Labelling

/-!
# The order of imports

`Tree.bindings` lists what the import declarations of a tree bind, in the order in which they stand,
and the imports of a module are these bindings put in one after the other: of those that bind the
same identifier the last one counts (`source?_imports`).

Labelling changes none of them (`imports_label`), and the import of the helper stands in front of
them all: it binds the helper only where the module does not (`source?_addWrapperImport`).
-/

namespace HookLabel

namespace Tree

/-! ### What a tree binds -/

mutual

/-- What the import declarations of a tree bind, each identifier with its module. -/
def bindings : Tree → List (Ident × String)
  | node .importDeclaration fs => importedBindings fs
  | node _ fs => bindingsOfFields fs
  | list ts => bindingsOfList ts
  | _ => []

/-- What the import declarations in the trees of a list bind, from left to right. -/
def bindingsOfList : List Tree → List (Ident × String)
  | [] => []
  | t :: ts => t.bindings ++ bindingsOfList ts

/-- What the import declarations in the fields of a node bind. -/
def bindingsOfFields : List (String × Tree) → List (Ident × String)
  | [] => []
  | (_, t) :: fs => t.bindings ++ bindingsOfFields fs

end

/-- A node that is no import declaration binds what its fields bind. -/
lemma bindings_node {kind : Kind} (h : kind ≠ .importDeclaration) (fs : Fields) :
    (node kind fs).bindings = bindingsOfFields fs := by
  rw [bindings]
  exact h

/-- A list binds what its trees bind, one tree after the other. -/
lemma bindingsOfList_eq (ts : List Tree) : bindingsOfList ts = (ts.map bindings).flatten := by
  induction ts with
  | nil => rfl
  | cons t ts ih => rw [bindingsOfList, ih, List.map_cons, List.flatten_cons]

/-- Fields bind what their trees bind, one field after the other. -/
lemma bindingsOfFields_eq (fs : Fields) :
    bindingsOfFields fs = ((fs.map fun p => (p.1, p.2.bindings)).map (·.2)).flatten := by
  induction fs with
  | nil => rfl
  | cons p fs ih =>
    obtain ⟨n, t⟩ := p
    rw [bindingsOfFields, ih]
    rfl

/-- The import of the helper binds the helper, in the outermost context. -/
lemma bindings_wrapperImport (wrapper source : String) :
    (wrapperImport wrapper source).bindings = [(⟨wrapper, 0⟩, source)] := by
  simp [wrapperImport, bindings, importedBindings, boundBySpecifier?, field, isTrue, items, get,
    fields, stringLiteral, text]

/-! ### Wrapping changes nothing that is bound -/

/-- An initialiser has no part in what an import declaration binds. -/
lemma importedBindings_modifyInit (f : Tree → Tree) (fs : Fields) :
    importedBindings (modifyField "init" f fs) = importedBindings fs := by
  simp [importedBindings, field_modifyField_of_ne]

/-- A helper call binds what the call in it binds. -/
lemma seesThrough_bindings (helper : String) : SeesThrough helper bindings where
  wrapperCall label t _ := by
    simp [wrapperCall, argument, reference, stringLiteral, bindings, bindingsOfFields,
      bindingsOfList]
  paren f fs h := by
    have hkind : Kind.parenthesisExpression ≠ .importDeclaration := by decide
    have hmap := map_setField (g := fun _ => bindings) h
    rw [bindings_node hkind, bindings_node hkind, bindingsOfFields_eq, bindingsOfFields_eq,
      modifyField, hmap]
  init kind f fs h := by
    by_cases hkind : kind = .importDeclaration
    · subst hkind
      exact importedBindings_modifyInit f fs
    · have hmap := map_setField (g := fun _ => bindings) h
      rw [bindings_node hkind, bindings_node hkind, bindingsOfFields_eq, bindingsOfFields_eq,
        modifyField, hmap]
  list ts us h := by
    rw [bindings, bindings, bindingsOfList_eq, bindingsOfList_eq, h]

section Rule

variable (wrapper : String) (rule : OwnedCall → List String)

/-- A tree binds what it bound before its calls were wrapped. -/
theorem bindings_wrapOwned (t : Tree) : (t.wrapOwned wrapper rule).bindings = t.bindings := by
  induction t using partsInduction with
  | null | bool b | num m d | str s => rfl
  | list ts ih =>
    rw [wrapOwned_list, bindings, bindings, bindingsOfList_eq, bindingsOfList_eq, List.map_map]
    exact congrArg List.flatten (List.map_congr_left ih)
  | node kind fs ih =>
    by_cases hkind : kind = .importDeclaration
    · subst hkind
      have himported := (keepsReadings_wrapOwned wrapper rule).importedBindings fs
      rw [wrapOwned_node]
      exact himported.trans (List.map_id _)
    · rw [wrapOwned_node, bindings_node hkind, bindings_node hkind, bindingsOfFields_eq,
        (seesThrough_bindings wrapper).map_wrapSlots fun _ _ => rfl, bindingsOfFields_eq]
      simp only [mapFields, List.map_map]
      exact congrArg List.flatten (List.map_congr_left ih)

end Rule

end Tree

namespace ImportBindings

/-! ### The imports of a list of trees -/

/-- Bindings may be put in list by list. -/
lemma insertMany_append (b : ImportBindings) (l l' : List (Ident × String)) :
    b.insertMany (l ++ l') = (b.insertMany l).insertMany l' :=
  List.foldl_append

/-- Adding the imports of a tree puts in what it binds. -/
lemma addTree_eq (b : ImportBindings) (t : Tree) : b.addTree t = b.insertMany t.bindings := by
  induction t using Tree.partsInduction generalizing b with
  | null | bool v | num m d | str s => rfl
  | list ts ih =>
    rw [addTree, Tree.bindings]
    induction ts generalizing b with
    | nil => rfl
    | cons t ts ihts =>
      rw [addTrees, Tree.bindingsOfList, insertMany_append, ih t List.mem_cons_self,
        ihts fun u hu => ih u (List.mem_cons_of_mem t hu)]
  | node kind fs ih =>
    by_cases hkind : kind = .importDeclaration
    · subst hkind
      rfl
    · rw [addTree, Tree.bindings_node hkind]
      · induction fs generalizing b with
        | nil => rfl
        | cons p fs ihfs =>
          rw [addFields, Tree.bindingsOfFields, insertMany_append, ih p List.mem_cons_self,
            ihfs fun q hq => ih q (List.mem_cons_of_mem p hq)]
      · exact hkind

/-- So does adding the imports of a list of trees. -/
lemma addTrees_eq (b : ImportBindings) (ts : List Tree) :
    b.addTrees ts = b.insertMany (Tree.bindingsOfList ts) := by
  induction ts generalizing b with
  | nil => rfl
  | cons t ts ih => rw [addTrees, Tree.bindingsOfList, insertMany_append, addTree_eq, ih]

/-- The module of the last one of a list of bindings that binds an identifier. -/
def lastSource? (x : Ident) (l : List (Ident × String)) : Option String :=
  (l.filter fun p => p.1 = x).getLast?.map (·.2)

/-- A binding counts unless a later one binds the same identifier. -/
lemma lastSource?_cons (x : Ident) (p : Ident × String) (l : List (Ident × String)) :
    lastSource? x (p :: l) = (lastSource? x l).or (if p.1 = x then some p.2 else none) := by
  unfold lastSource?
  by_cases hp : p.1 = x
  · rw [List.filter_cons_of_pos (by simpa using hp), List.getLast?_cons, if_pos hp]
    cases (l.filter fun p => p.1 = x).getLast? <;> rfl
  · rw [List.filter_cons_of_neg (by simpa using hp), if_neg hp, Option.or_none]

/-- There is a last binding of an identifier exactly if there is one. -/
lemma isSome_lastSource?_iff (x : Ident) (l : List (Ident × String)) :
    (lastSource? x l).isSome ↔ x ∈ l.map Prod.fst := by
  induction l with
  | nil => exact ⟨nofun, nofun⟩
  | cons p l ih =>
    rw [lastSource?_cons, List.map_cons, List.mem_cons, Option.isSome_or, Bool.or_eq_true, ih,
      or_comm]
    refine or_congr_left ?_
    by_cases hp : p.1 = x
    · simp [hp]
    · simp [hp, Ne.symm hp]

/-- Of the bindings that are put in, the last one of an identifier counts, and one that was there
before counts only if there is none. -/
lemma source?_insertMany (b : ImportBindings) (l : List (Ident × String)) (x : Ident) :
    (b.insertMany l).source? x = (lastSource? x l).or (b.source? x) := by
  induction l generalizing b with
  | nil => rfl
  | cons p l ih =>
    have hinsert : b.insertMany (p :: l) = (b.insert p.1 p.2).insertMany l := rfl
    rw [hinsert, ih, source?_insert, lastSource?_cons, Option.or_assoc]
    by_cases hp : p.1 = x <;> simp [hp]

end ImportBindings

namespace Module

/-! ### The imports of a module -/

/-- An identifier comes from where the last binding of it in the module says. -/
lemma source?_imports (m : Module) (x : Ident) :
    m.imports.source? x = ImportBindings.lastSource? x (Tree.bindingsOfList m.body) := by
  rw [imports, ImportBindings.ofItems, ImportBindings.addTrees_eq,
    ImportBindings.source?_insertMany, ImportBindings.source?_empty, Option.or_none]

/-- Labelling changes no import. -/
lemma imports_label (m : Module) (config : Config) (resolver : Resolver) :
    (m.label config resolver).value.imports = m.imports := by
  have hbindings : ∀ (wrapper : String) (rule : OwnedCall → List String) (ts : List Tree),
      Tree.bindingsOfList (ts.map (Tree.wrapOwned wrapper rule)) = Tree.bindingsOfList ts := by
    intro wrapper rule ts
    have hlist := Tree.bindings_wrapOwned wrapper rule (.list ts)
    rwa [Tree.wrapOwned_list, Tree.bindings, Tree.bindings] at hlist
  simp only [imports, ImportBindings.ofItems, ImportBindings.addTrees_eq, label_eq, hbindings]

/-- The import of the helper binds it where the module does not. -/
lemma source?_addWrapperImport (m : Module) (config : Config) (log : Log) (x : Ident) :
    (m.addWrapperImport config log).value.imports.source? x =
      (m.imports.source? x).or
        (if log.isDirty ∧ x = ⟨config.wrapperName, 0⟩ then
          some config.wrapperSource else none) := by
  unfold addWrapperImport
  split
  · rename_i hdirty
    rw [source?_imports, source?_imports, Tree.bindingsOfList, Tree.bindings_wrapperImport,
      List.singleton_append, ImportBindings.lastSource?_cons]
    simp only [hdirty, true_and, eq_comm]
  · rename_i hclean
    simp [hclean]

end Module

end HookLabel
