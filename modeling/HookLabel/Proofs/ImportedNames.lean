import HookLabel.Proofs.ImportOrder
import Mathlib.Data.List.Basic

/-!
# The names that a module imports

What the imports of a module are, stated apart from the walk that collects them.
`Tree.importDeclarations` lists the import declarations of a tree in the order in which they stand,
`importedNames` lists what each of them imports, and `valuePairs` leaves out what is imported for
its type only.

An identifier comes from where its last pair says (`Module.source?_imports_iff_isLastPair`).  The
pairs are those of the declarations that do not stand inside another one.  A function in the
attributes of an import declaration can contain another declaration, but the walk does not enter
the attributes (`Module.not_source?_imports_iff_last_of_all`).
-/

namespace HookLabel

/-! ### Import declarations -/

/-- A name that an import declaration brings into the module. -/
structure ImportedName where
  ident : Ident
  source : String
  /-- Whether only the type is imported. -/
  typeOnly : Bool
deriving DecidableEq, Repr

/-- The kinds of specifiers in an import declaration. -/
def specifierKinds : List Kind :=
  [.importSpecifier, .importDefaultSpecifier, .importNamespaceSpecifier]

/-- The name that a specifier stands for in the import declaration with the given fields. -/
def importedName? (declaration : Fields) : Tree → Option ImportedName
  | .node kind fs =>
    if kind ∈ specifierKinds then
      (field "local" fs).ident?.map fun x =>
        { ident := x
          source := ((field "source" declaration).get "value").text
          typeOnly := (field "typeOnly" declaration).isTrue ∨
            kind = .importSpecifier ∧ (field "isTypeOnly" fs).isTrue }
    else none
  | _ => none

/-- The names of an import declaration with the given fields. -/
def importedNames (declaration : Fields) : List ImportedName :=
  (field "specifiers" declaration).items.filterMap (importedName? declaration)

/-- The identifiers that stand for values, each with the module that it is imported from. -/
def valuePairs (names : List ImportedName) : List (Ident × String) :=
  (names.filter fun n => !n.typeOnly).map fun n => (n.ident, n.source)

/-- A pair stands in a list, and no later one has the same identifier. -/
def IsLastPair (x : Ident) (source : String) (l : List (Ident × String)) : Prop :=
  ∃ before after, l = before ++ (x, source) :: after ∧ x ∉ after.map Prod.fst

namespace Tree

mutual

/-- The import declarations of a tree, each by its fields, in the order in which they stand.  Those
inside another one are listed only if `nested` is set. -/
def importDeclarations (nested : Bool) : Tree → List Fields
  | node kind fs =>
    if kind = .importDeclaration then
      fs :: if nested then importDeclarationsOfFields nested fs else []
    else importDeclarationsOfFields nested fs
  | list ts => importDeclarationsOfList nested ts
  | _ => []

/-- The import declarations in the trees of a list. -/
def importDeclarationsOfList (nested : Bool) : List Tree → List Fields
  | [] => []
  | t :: ts => t.importDeclarations nested ++ importDeclarationsOfList nested ts

/-- The import declarations in the fields of a node. -/
def importDeclarationsOfFields (nested : Bool) : List (String × Tree) → List Fields
  | [] => []
  | (_, t) :: fs => t.importDeclarations nested ++ importDeclarationsOfFields nested fs

end

end Tree

/-- The identifiers that the import declarations of a module import as values, each with its
module; those of the declarations inside another one only if `nested` is set. -/
def Module.importPairs (nested : Bool) (m : Module) : List (Ident × String) :=
  valuePairs ((Tree.importDeclarationsOfList nested m.body).flatMap importedNames)

/-! ### What the walk collects -/

/-- What a node binds as a specifier, by its kind. -/
lemma boundBySpecifier?_node (kind : Kind) (fs : Fields) :
    (Tree.node kind fs).boundBySpecifier? =
      if kind ∈ specifierKinds ∧ ¬ (kind = .importSpecifier ∧ (field "isTypeOnly" fs).isTrue) then
        (field "local" fs).ident?
      else none := by
  unfold Tree.boundBySpecifier?
  split
  · rename_i heq
    cases heq
    by_cases htype : (field "isTypeOnly" fs).isTrue <;> simp [specifierKinds, htype]
  · rename_i heq
    cases heq
    simp [specifierKinds]
  · rename_i heq
    cases heq
    simp [specifierKinds]
  · rename_i hnamed hdefault hnamespace
    have hkind : kind ∉ specifierKinds := by
      intro hmem
      simp only [specifierKinds, List.mem_cons, List.not_mem_nil, or_false] at hmem
      rcases hmem with rfl | rfl | rfl
      · exact hnamed fs rfl
      · exact hdefault fs rfl
      · exact hnamespace fs rfl
    rw [if_neg fun h => hkind h.1]

/-- A specifier binds the name that it stands for, unless only the type is imported. -/
lemma map_importedName? (declaration : Fields) (s : Tree) :
    ((importedName? declaration s).filter fun n => !n.typeOnly).map (fun n => (n.ident, n.source)) =
      if (field "typeOnly" declaration).isTrue then none
      else s.boundBySpecifier?.map fun x =>
        (x, ((field "source" declaration).get "value").text) := by
  cases s with
  | null | bool b | num m d | str t | list ts => simp [importedName?, Tree.boundBySpecifier?]
  | node kind fs =>
    rw [importedName?, boundBySpecifier?_node]
    by_cases hkind : kind ∈ specifierKinds
    · cases (field "local" fs).ident? with
      | none => simp
      | some x =>
        by_cases htype : (field "typeOnly" declaration).isTrue
        · simp [hkind, htype]
        · by_cases hown : kind = .importSpecifier ∧ (field "isTypeOnly" fs).isTrue
          · simp [htype, hown]
          · simp [hkind, htype, hown, Option.filter]
    · simp [hkind]

/-- An import declaration binds its values. -/
lemma importedBindings_eq (declaration : Fields) :
    importedBindings declaration = valuePairs (importedNames declaration) := by
  rw [valuePairs, importedNames, List.filter_filterMap, List.map_filterMap, importedBindings]
  simp only [map_importedName?]
  by_cases htype : (field "typeOnly" declaration).isTrue
  · simp [htype]
  · simp [htype]

namespace Tree

/-- The import declarations of a list, one tree after the other. -/
lemma importDeclarationsOfList_eq (nested : Bool) (ts : List Tree) :
    importDeclarationsOfList nested ts = ts.flatMap (importDeclarations nested) := by
  induction ts with
  | nil => rfl
  | cons t ts ih => rw [importDeclarationsOfList, ih, List.flatMap_cons]

/-- The import declarations of fields, one field after the other. -/
lemma importDeclarationsOfFields_eq (nested : Bool) (fs : Fields) :
    importDeclarationsOfFields nested fs = fs.flatMap fun p => p.2.importDeclarations nested := by
  induction fs with
  | nil => rfl
  | cons p fs ih => rw [importDeclarationsOfFields, ih, List.flatMap_cons]

/-- The walk collects what the declarations bind that do not stand inside another one. -/
lemma bindings_eq_flatMap (t : Tree) :
    t.bindings = (t.importDeclarations false).flatMap importedBindings := by
  induction t using partsInduction with
  | null | bool b | num m d | str s => rfl
  | list ts ih =>
    rw [bindings, bindingsOfList_eq, ← List.flatMap_def, importDeclarations,
      importDeclarationsOfList_eq, List.flatMap_assoc]
    exact List.flatMap_congr ih
  | node kind fs ih =>
    by_cases hkind : kind = .importDeclaration
    · subst hkind
      rw [bindings, importDeclarations, if_pos rfl, if_neg Bool.false_ne_true,
        List.flatMap_singleton]
    · rw [bindings_node hkind, bindingsOfFields_eq, List.map_map, ← List.flatMap_def,
        importDeclarations, if_neg hkind, importDeclarationsOfFields_eq, List.flatMap_assoc]
      exact List.flatMap_congr ih

/-- If no import declaration stands inside another one, these are all. -/
lemma importDeclarations_true {t : Tree}
    (h : ∀ declaration ∈ t.importDeclarations false,
      importDeclarationsOfFields true declaration = []) :
    t.importDeclarations true = t.importDeclarations false := by
  induction t using partsInduction with
  | null | bool b | num m d | str s => rfl
  | list ts ih =>
    rw [importDeclarations, importDeclarationsOfList_eq] at h ⊢
    rw [importDeclarations, importDeclarationsOfList_eq]
    refine List.flatMap_congr fun t ht => ih t ht fun declaration hmem => ?_
    exact h declaration (List.mem_flatMap.mpr ⟨t, ht, hmem⟩)
  | node kind fs ih =>
    by_cases hkind : kind = .importDeclaration
    · rw [importDeclarations, if_pos hkind] at h ⊢
      rw [importDeclarations, if_pos hkind, if_pos rfl, h fs List.mem_cons_self,
        if_neg Bool.false_ne_true]
    · rw [importDeclarations, if_neg hkind, importDeclarationsOfFields_eq] at h ⊢
      rw [importDeclarations, if_neg hkind, importDeclarationsOfFields_eq]
      refine List.flatMap_congr fun p hp => ih p hp fun declaration hmem => ?_
      exact h declaration (List.mem_flatMap.mpr ⟨p, hp, hmem⟩)

end Tree

namespace ImportBindings

/-- Of two lists the second counts first. -/
lemma lastSource?_append (x : Ident) (l l' : List (Ident × String)) :
    lastSource? x (l ++ l') = (lastSource? x l').or (lastSource? x l) := by
  induction l with
  | nil => exact (Option.or_none).symm
  | cons p l ih => rw [List.cons_append, lastSource?_cons, ih, lastSource?_cons, Option.or_assoc]

/-- There is no module for an identifier that no binding binds. -/
lemma lastSource?_eq_none_iff (x : Ident) (l : List (Ident × String)) :
    lastSource? x l = none ↔ x ∉ l.map Prod.fst := by
  rw [← Option.not_isSome_iff_eq_none, isSome_lastSource?_iff]

/-- The last module of an identifier is the one of its last pair. -/
lemma lastSource?_eq_some_iff {x : Ident} {source : String} {l : List (Ident × String)} :
    lastSource? x l = some source ↔ IsLastPair x source l := by
  constructor
  · intro h
    induction l with
    | nil => cases h
    | cons p l ih =>
      rw [lastSource?_cons, Option.or_eq_some_iff] at h
      rcases h with hlater | ⟨hnone, hfirst⟩
      · obtain ⟨before, after, rfl, hlast⟩ := ih hlater
        exact ⟨p :: before, after, rfl, hlast⟩
      · obtain ⟨rfl, hsource⟩ := Option.ite_none_right_eq_some.mp hfirst
        obtain rfl := Option.some.inj hsource
        exact ⟨[], l, rfl, (lastSource?_eq_none_iff p.1 l).mp hnone⟩
  · rintro ⟨before, after, rfl, hlast⟩
    rw [lastSource?_append, lastSource?_cons, (lastSource?_eq_none_iff x after).mpr hlast,
      if_pos rfl, Option.none_or, Option.some_or]

end ImportBindings

namespace Module

/-! ### The imports of a module -/

/-- An identifier is imported from the module of the last pair that binds it. -/
lemma source?_imports_eq (m : Module) (x : Ident) :
    m.imports.source? x = ImportBindings.lastSource? x (m.importPairs false) := by
  have hbindings := Tree.bindings_eq_flatMap (.list m.body)
  rw [Tree.bindings, Tree.importDeclarations] at hbindings
  have himported : importedBindings = fun declaration => valuePairs (importedNames declaration) :=
    funext importedBindings_eq
  rw [source?_imports, hbindings, himported, importPairs, valuePairs, List.filter_flatMap,
    List.map_flatMap]
  rfl

/-- The imports of a module are its import pairs.  An identifier comes from where its last pair
says and, if it has none, from nowhere; what is imported for its type only makes no pair.  It is
resolved to some origins if it comes from one of them, so only which origins there are counts, and
with more of them it still is.  The pairs are those of the declarations that stand in no other one,
which are all if no declaration contains another. -/
theorem source?_imports_iff_isLastPair (m : Module) (x : Ident) :
    let pairs := m.importPairs false
    (∀ source, m.imports.source? x = some source ↔ IsLastPair x source pairs) ∧
    (m.imports.source? x = none ↔ x ∉ pairs.map Prod.fst) ∧
    (∀ origins, m.imports.resolves x origins ↔
      ∃ source ∈ origins, m.imports.source? x = some source) ∧
    (∀ origins origins', (∀ origin, origin ∈ origins ↔ origin ∈ origins') →
      m.imports.resolves x origins = m.imports.resolves x origins') ∧
    (∀ origins origins', origins ⊆ origins' →
      m.imports.resolves x origins → m.imports.resolves x origins') ∧
    ((∀ declaration ∈ Tree.importDeclarationsOfList false m.body,
        Tree.importDeclarationsOfFields true declaration = []) →
      m.importPairs true = pairs) := by
  intro pairs
  have hresolves : ∀ origins, m.imports.resolves x origins ↔
      ∃ source ∈ origins, m.imports.source? x = some source :=
    fun origins => ImportBindings.resolves_eq_true_iff
  have hmono : ∀ origins origins', origins ⊆ origins' →
      m.imports.resolves x origins → m.imports.resolves x origins' := by
    intro origins origins' hsubset hresolved
    obtain ⟨source, hmem, hsource⟩ := (hresolves origins).mp hresolved
    exact (hresolves origins').mpr ⟨source, hsubset hmem, hsource⟩
  refine ⟨?_, ?_, hresolves, ?_, hmono, ?_⟩
  · intro source
    rw [source?_imports_eq, ImportBindings.lastSource?_eq_some_iff]
  · rw [source?_imports_eq, ImportBindings.lastSource?_eq_none_iff]
  · intro origins origins' hsame
    have hforth := hmono origins origins' fun origin => (hsame origin).mp
    have hback := hmono origins' origins fun origin => (hsame origin).mpr
    exact Bool.eq_iff_iff.mpr ⟨hforth, hback⟩
  · intro hflat
    have hall : (Tree.list m.body).importDeclarations true =
        (Tree.list m.body).importDeclarations false := Tree.importDeclarations_true hflat
    rw [Tree.importDeclarations, Tree.importDeclarations] at hall
    rw [importPairs, hall]
    rfl

/-- Of `import { useState } from "preact/hooks"; import { useState } from "react";` the second one
counts, for the origins in any order and for more of them. -/
theorem source?_imports_iff_isLastPair_of_two_imports :
    let m : Module :=
      ⟨[.wrapperImport "useState" "preact/hooks", .wrapperImport "useState" "react"], []⟩
    let x : Ident := ⟨"useState", 0⟩
    m.imports.source? x = some "react" ∧
      m.imports.resolves x ["react", "preact"] = m.imports.resolves x ["preact", "react", "react"] ∧
      m.imports.resolves x ["preact", "react"] ∧ m.importPairs true = m.importPairs false := by
  intro m x
  obtain ⟨hsome, -, hresolves, hsame, hmono, hflat⟩ := source?_imports_iff_isLastPair m x
  have hlast : IsLastPair x "react" (m.importPairs false) :=
    ⟨[(x, "preact/hooks")], [], by decide, by decide⟩
  have hsource : m.imports.source? x = some "react" := (hsome "react").mpr hlast
  have hreact : m.imports.resolves x ["react"] :=
    (hresolves ["react"]).mpr ⟨"react", by decide, hsource⟩
  refine ⟨hsource, hsame _ _ (by simp [or_comm]), hmono _ _ (by simp) hreact, hflat (by decide)⟩

/-- The module `import {} from "react" with { k: function () { declare module "m" { import { hid }
from "hidden" } } };`. -/
def importingInAttributes : Module where
  body := [.node .importDeclaration
    [("specifiers", .list []), ("source", .stringLiteral "react"), ("typeOnly", .bool false),
      ("with", .node (.other "ObjectExpression") [("properties", .list
        [.node (.other "KeyValueProperty") [("key", .node .identifier [("value", .str "k")]),
          ("value", .node (.other "FunctionExpression")
            [("identifier", .null), ("params", .list []), ("decorators", .list []),
              ("body", .node (.other "BlockStatement") [("ctxt", .num 0 0), ("stmts", .list
                [.node (.other "TsModuleDeclaration") [("declare", .bool true),
                  ("global", .bool false), ("namespace", .bool false),
                  ("id", .stringLiteral "m"), ("body", .node (.other "TsModuleBlock")
                    [("body", .list [.wrapperImport "hid" "hidden"])])]])]),
              ("typeParameters", .null), ("returnType", .null), ("ctxt", .num 0 0),
              ("generator", .bool false), ("async", .bool false)])]])]),
      ("phase", .str "evaluation")]]
  attributes := [("interpreter", .null)]

/-- Not every import declaration counts: in the module above `hid` comes from nowhere. -/
theorem not_source?_imports_iff_last_of_all :
    ¬ ∀ (m : Module) (x : Ident) (source : String),
      m.imports.source? x = some source ↔ IsLastPair x source (m.importPairs true) := by
  intro h
  have hlast : IsLastPair ⟨"hid", 0⟩ "hidden" (importingInAttributes.importPairs true) :=
    ⟨[], [], by decide, by decide⟩
  have hnone : importingInAttributes.imports.source? ⟨"hid", 0⟩ = none := by
    rw [source?_imports_eq]
    rfl
  have hsome := (h importingInAttributes ⟨"hid", 0⟩ "hidden").mpr hlast
  rw [hnone] at hsome
  cases hsome

end Module

end HookLabel
