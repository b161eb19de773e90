import HookLabel.Config.Error
import HookLabel.Proofs.JsonGroups

/-!
# The texts of configurations

What the reader of configurations accepts, stated apart from it.  A configuration is written as an
object with a member for each value that is given, or as an array of values by position
(`EntriesSpelling`); what is not given has its default (`Config.ofEntries`).

A text is read as a configuration exactly if it spells that configuration between blanks
(`read_eq_ok_iff`), and then the configuration is accepted exactly if none of its parts is empty
(`fault?_eq`, `ofText_iff_textSpelling`).  The induction on the members carries which keys have been
given: no later member repeats one of them.
-/

namespace HookLabel.Config

open Json

/-! ### Spellings -/

/-- A value of a configuration with the key that it is for. -/
inductive Entry where
  | origins (value : List String)
  | wrapperName (value : String)
  | wrapperSource (value : String)
deriving DecidableEq, Repr

namespace Entry

/-- The key that a value is for. -/
def key : Entry → Key
  | origins _ => .origins
  | wrapperName _ => .wrapperName
  | wrapperSource _ => .wrapperSource

/-- Gives a configuration the value. -/
def set (c : Config) : Entry → Config
  | origins value => { c with origins := value }
  | wrapperName value => { c with wrapperName := value }
  | wrapperSource value => { c with wrapperSource := value }

end Entry

/-- The configuration with the given values, and the defaults for the rest. -/
def ofEntries (es : List Entry) : Config := es.foldl Entry.set {}

/-- The spellings of a value: of the modules a sequence of strings, else a string. -/
inductive ValueSpelling : List Char → Entry → Prop where
  | origins {s : List Char} {value : List String} (h : Group StringSpelling '[' ']' s value) :
      ValueSpelling s (.origins value)
  | wrapperName {s : List Char} {value : String} (h : StringSpelling s value) :
      ValueSpelling s (.wrapperName value)
  | wrapperSource {s : List Char} {value : String} (h : StringSpelling s value) :
      ValueSpelling s (.wrapperSource value)

/-- The spellings of a value behind its key. -/
inductive MemberSpelling : List Char → Entry → Prop where
  | keyed {k b b' s : List Char} {e : Entry} (hkey : StringSpelling k e.key.name) (hb : Blanks b)
      (hb' : Blanks b') (hvalue : ValueSpelling s e) :
      MemberSpelling (k ++ (b ++ ':' :: (b' ++ s))) e

/-- The spellings of the values that are given: an object whose keys are distinct, or an array whose
values are for the first keys. -/
inductive EntriesSpelling : List Char → List Entry → Prop where
  | byKey {s : List Char} {es : List Entry} (h : Group MemberSpelling '{' '}' s es)
      (hdistinct : (es.map Entry.key).Nodup) : EntriesSpelling s es
  | byPosition {s : List Char} {es : List Entry} (h : Group ValueSpelling '[' ']' s es)
      (hkeys : es.map Entry.key <+: Key.all) : EntriesSpelling s es

/-- The texts of a configuration: the values that are given, between blanks. -/
inductive TextSpelling : List Char → Config → Prop where
  | between {b s b' : List Char} {es : List Entry} (hb : Blanks b) (h : EntriesSpelling s es)
      (hb' : Blanks b') : TextSpelling (b ++ (s ++ b')) (ofEntries es)

/-! ### Values -/

namespace Draft

/-- Adds a value to those that have been given. -/
def put (d : Draft) : Entry → Draft
  | .origins value => { d with origins := some value }
  | .wrapperName value => { d with wrapperName := some value }
  | .wrapperSource value => { d with wrapperSource := some value }

/-- Putting an entry sets its key and no other. -/
lemma has_put (d : Draft) (e : Entry) (k : Key) :
    (d.put e).has k = (decide (e.key = k) || d.has k) := by
  cases e <;> cases k <;> rfl

/-- A key that is read now counts as given for the values behind it. -/
lemma has_put_of_nodup {d : Draft} {e : Entry} {es : List Entry}
    (hdistinct : ((e :: es).map Entry.key).Nodup) (hfresh : ∀ e' ∈ e :: es, d.has e'.key = false) :
    ∀ e' ∈ es, (d.put e).has e'.key = false := by
  intro e' he'
  rw [List.map_cons, List.nodup_cons] at hdistinct
  have hne : e.key ≠ e'.key := fun heq => hdistinct.1 (heq ▸ List.mem_map_of_mem he')
  rw [has_put, decide_eq_false hne, hfresh e' (List.mem_cons_of_mem e he')]
  rfl

/-- Putting an entry sets its value in the configuration. -/
lemma toConfig_put (d : Draft) (e : Entry) : (d.put e).toConfig = e.set d.toConfig := by
  cases e <;> rfl

/-- What has been read is the configuration with the values in the order in which they stand. -/
lemma toConfig_foldl_put (d : Draft) (es : List Entry) :
    (es.foldl put d).toConfig = es.foldl Entry.set d.toConfig := by
  induction es generalizing d with
  | nil => rfl
  | cons e es ih => rw [List.foldl_cons, ih, toConfig_put, List.foldl_cons]

end Draft

/-- A value starts an item, with a quote or a bracket. -/
lemma ValueSpelling.startsItem {close : Char} {s : List Char} {e : Entry} (h : ValueSpelling s e)
    (hquote : '"' ≠ close) (hbracket : '[' ≠ close) (r : List Char) :
    StartsItem close (s ++ r) := by
  cases h with
  | origins h =>
    cases h with
    | bracketed h => exact ⟨'[', _, rfl, rfl, hbracket⟩
  | wrapperName h | wrapperSource h => exact h.startsItem hquote r

/-- A value is read off the front of a text, behind blanks. -/
lemma readValue_append (d : Draft) {b s : List Char} {e : Entry} (hb : Blanks b)
    (h : ValueSpelling s e) (r : List Char) :
    readValue d e.key (b ++ (s ++ r)) = .ok (d.put e, r) := by
  cases h with
  | origins h => simp only [Entry.key, readValue, readSequence_append hb h, Draft.put]
  | wrapperName h | wrapperSource h =>
    simp only [Entry.key, readValue, readString_append hb h, Draft.put]

/-- A value that is read for a key is spelled behind blanks, and put under the key. -/
lemma exists_of_readValue {d d' : Draft} {key : Key} {s r : List Char}
    (h : readValue d key s = .ok (d', r)) :
    ∃ b t e, Blanks b ∧ ValueSpelling t e ∧ e.key = key ∧ d' = d.put e ∧ s = b ++ (t ++ r) := by
  unfold readValue at h
  split at h
  · split at h
    · cases h
    · rename_i hread
      cases h
      obtain ⟨b, t, hb, ht, rfl⟩ := exists_of_readSequence hread
      exact ⟨b, t, _, hb, .origins ht, rfl, rfl, rfl⟩
  · split at h
    · cases h
    · rename_i hread
      cases h
      obtain ⟨b, t, hb, ht, rfl⟩ := exists_of_readString hread
      exact ⟨b, t, _, hb, .wrapperName ht, rfl, rfl, rfl⟩
  · split at h
    · cases h
    · rename_i hread
      cases h
      obtain ⟨b, t, hb, ht, rfl⟩ := exists_of_readString hread
      exact ⟨b, t, _, hb, .wrapperSource ht, rfl, rfl, rfl⟩

/-! ### Values by key -/

/-- A name is accepted exactly if it is that of a key which has no value yet. -/
lemma freshKey_eq_ok_iff {d : Draft} {name : String} {key : Key} :
    freshKey d name = .ok key ↔ name = key.name ∧ d.has key = false := by
  constructor
  · intro h
    unfold freshKey at h
    split at h
    · cases h
    · rename_i key' hname
      split at h
      · cases h
      · rename_i hfresh
        cases h
        exact ⟨Key.ofName?_eq_some_iff.mp hname, Bool.not_eq_true _ ▸ hfresh⟩
  · rintro ⟨rfl, hfresh⟩
    simp only [freshKey, Key.ofName?_name, hfresh, Bool.false_eq_true, if_false]

/-- The colon is read behind blanks. -/
lemma readColon_append {b : List Char} (hb : Blanks b) (r : List Char) :
    readColon (b ++ ':' :: r) = .ok r := by
  have hskip : skipBlanks (b ++ ':' :: r) = ':' :: r := skipBlanks_append_cons hb rfl r
  simp only [readColon, hskip]

/-- Nothing but blanks may stand in front of the colon. -/
lemma exists_of_readColon {s r : List Char} (h : readColon s = .ok r) :
    ∃ b, Blanks b ∧ s = b ++ ':' :: r := by
  unfold readColon at h
  split at h
  · cases h
  · rename_i hskip
    cases h
    obtain ⟨-, b, hb, rfl⟩ := skipBlanks_eq_cons_iff.mp hskip
    exact ⟨b, hb, rfl⟩
  · cases h

/-- A member starts an item, with the quote of its key. -/
lemma MemberSpelling.startsItem {close : Char} {s : List Char} {e : Entry}
    (h : MemberSpelling s e) (hclose : '"' ≠ close) (r : List Char) :
    StartsItem close (s ++ r) := by
  cases h with
  | keyed hkey hb hb' hvalue =>
    rw [List.append_assoc]
    exact hkey.startsItem hclose _

/-- Behind a key that has been read, the key is judged before anything that follows it. -/
lemma readMember_quoted (d : Draft) {k : List Char} {name : String} (hk : StringSpelling k name)
    (r : List Char) :
    readMember d (k ++ r) =
      match freshKey d name with
      | .error e => .error e
      | .ok key =>
        match readColon r with
        | .error e => .error e
        | .ok u => readValue d key u := by
  cases hk with
  | @quoted t cs ht =>
    have htext : '"' :: (t ++ ['"']) ++ r = '"' :: (t ++ '"' :: r) := by
      rw [List.cons_append, List.append_assoc, List.singleton_append]
    rewrite [htext, readMember, readChars_append ht]
    rfl

/-- A member is read off the front of a text, if its key has not been given before. -/
lemma readMember_append {d : Draft} {s : List Char} {e : Entry} (h : MemberSpelling s e)
    (hfresh : d.has e.key = false) (r : List Char) :
    readMember d (s ++ r) = .ok (d.put e, r) := by
  cases h with
  | @keyed k b b' s e hkey hb hb' hvalue =>
    have hfresh : freshKey d e.key.name = .ok e.key := freshKey_eq_ok_iff.mpr ⟨rfl, hfresh⟩
    have htext : k ++ (b ++ ':' :: (b' ++ s)) ++ r = k ++ (b ++ ':' :: (b' ++ (s ++ r))) := by
      simp only [List.append_assoc, List.cons_append]
    rw [htext, readMember_quoted d hkey, hfresh]
    simp only [readColon_append hb, readValue_append d hb' hvalue]

/-- A member that is read is spelled in front of the rest, and its key had no value yet. -/
lemma exists_of_readMember {d d' : Draft} {s r : List Char} (h : readMember d s = .ok (d', r)) :
    ∃ t e, MemberSpelling t e ∧ d.has e.key = false ∧ d' = d.put e ∧ s = t ++ r := by
  unfold readMember at h
  split at h
  · split at h
    · cases h
    · rename_i hchars
      split at h
      · cases h
      · rename_i key hkey
        split at h
        · cases h
        · rename_i hcolon
          obtain ⟨t, ht, rfl⟩ := exists_of_readChars hchars
          obtain ⟨hname, hfresh⟩ := freshKey_eq_ok_iff.mp hkey
          obtain ⟨b, hb, rfl⟩ := exists_of_readColon hcolon
          obtain ⟨b', v, e, hb', hv, rfl, rfl, rfl⟩ := exists_of_readValue h
          have hquoted := StringSpelling.quoted ht
          rw [hname] at hquoted
          refine ⟨_, e, .keyed hquoted hb hb' hv, hfresh, rfl, ?_⟩
          simp only [List.append_assoc, List.cons_append, List.nil_append]
  · cases h

/-- One step of reading members. -/
lemma readMembers_eq (d : Draft) (first : Bool) (s : List Char) :
    readMembers d first s =
      match nextItem '}' first s with
      | .error e => .error e
      | .ok (.done r) => .ok (d, r)
      | .ok (.more r) =>
        match readMember d r with
        | .error e => .error e
        | .ok (d', rest) => readMembers d' false rest := by
  rw [readMembers]
  split
  · rename_i hnext
    rw [hnext]
  · rename_i hnext
    rw [hnext]
  · rename_i hnext
    simp only [hnext]
    split
    · rename_i hmember
      simp only [hmember]
    · rename_i hmember
      simp only [hmember]

/-- The members of an object are read off the front of a text, if no key is given twice. -/
lemma readMembers_append {d : Draft} {first : Bool} {s : List Char} {es : List Entry}
    (h : Items MemberSpelling '}' first s es) (hdistinct : (es.map Entry.key).Nodup)
    (hfresh : ∀ e ∈ es, d.has e.key = false) (r : List Char) :
    readMembers d first (s ++ r) = .ok (es.foldl Draft.put d, r) := by
  induction h generalizing d with
  | @close first b hb =>
    have hnext : nextItem '}' first (b ++ '}' :: r) = .ok (.done r) := nextItem_close rfl hb r
    rw [List.append_assoc, List.singleton_append, readMembers_eq, hnext]
    rfl
  | @item first p t s e es hp he h ih =>
    have hlater := Draft.has_put_of_nodup hdistinct hfresh
    rw [List.map_cons, List.nodup_cons] at hdistinct
    have hstarts : StartsItem '}' (t ++ (s ++ r)) := he.startsItem (by decide) (s ++ r)
    have hnext := nextItem_item (by decide) hp hstarts
    have hmember := readMember_append he (hfresh e List.mem_cons_self) (s ++ r)
    rw [List.append_assoc, List.append_assoc, readMembers_eq, hnext]
    simp only [hmember, ih hdistinct.2 hlater, List.foldl_cons]

/-- Members that are read are spelled as the items of a group, with different keys. -/
lemma exists_of_readMembers {d d' : Draft} {first : Bool} {s r : List Char}
    (h : readMembers d first s = .ok (d', r)) :
    ∃ t es, Items MemberSpelling '}' first t es ∧ (es.map Entry.key).Nodup ∧
      (∀ e ∈ es, d.has e.key = false) ∧ d' = es.foldl Draft.put d ∧ s = t ++ r := by
  fun_induction readMembers d first s generalizing d' r with
  | case1 => cases h
  | case2 d first s u hnext =>
    cases h
    obtain ⟨b, hb, rfl⟩ := exists_of_nextItem_done hnext
    refine ⟨b ++ ['}'], [], .close hb, List.nodup_nil, nofun, rfl, ?_⟩
    rw [List.append_assoc, List.singleton_append]
  | case3 => cases h
  | case4 d first s u hnext d₁ v hmember ih =>
    obtain ⟨p, hp, rfl⟩ := exists_of_nextItem_more hnext
    obtain ⟨t, e, he, hfresh, rfl, rfl⟩ := exists_of_readMember hmember
    obtain ⟨s, es, hs, hdistinct, hlater, rfl, rfl⟩ := ih h
    -- the later members repeat neither this key nor one that was given before
    have hparts : ∀ e' ∈ es, e.key ≠ e'.key ∧ d.has e'.key = false := by
      intro e' he'
      have hnot := hlater e' he'
      rwa [Draft.has_put, Bool.or_eq_false_iff, decide_eq_false_iff_not] at hnot
    refine ⟨p ++ (t ++ s), e :: es, .item hp he hs, ?_, ?_, rfl, ?_⟩
    · refine List.nodup_cons.mpr ⟨fun hmem => ?_, hdistinct⟩
      obtain ⟨e', he', heq⟩ := List.mem_map.mp hmem
      exact (hparts e' he').1 heq.symm
    · intro e' he'
      rcases List.mem_cons.mp he' with rfl | he'
      · exact hfresh
      · exact (hparts e' he').2
    · simp only [List.append_assoc]

/-! ### Values by position -/

/-- Values by position are read off the front of a text, if they are for the first keys that are
left. -/
lemma readPositional_append {d : Draft} {first : Bool} {s : List Char} {es : List Entry}
    {keys : List Key} (h : Items ValueSpelling ']' first s es) (hkeys : es.map Entry.key <+: keys)
    (r : List Char) : readPositional d first keys (s ++ r) = .ok (es.foldl Draft.put d, r) := by
  induction h generalizing d keys with
  | @close first b hb =>
    rw [List.append_assoc, List.singleton_append]
    cases keys with
    | nil =>
      have hend : endItems ']' (b ++ ']' :: r) = .ok r := endItems_close rfl hb r
      simp only [readPositional, hend, List.foldl_nil]
    | cons key keys =>
      have hnext : nextItem ']' first (b ++ ']' :: r) = .ok (.done r) := nextItem_close rfl hb r
      simp only [readPositional, hnext, List.foldl_nil]
  | @item first p t s e es hp he h ih =>
    cases keys with
    | nil => exact absurd (List.prefix_nil.mp hkeys) (List.cons_ne_nil _ _)
    | cons key keys =>
      rw [List.map_cons, List.cons_prefix_cons] at hkeys
      obtain ⟨rfl, hkeys⟩ := hkeys
      have hstarts : StartsItem ']' (t ++ (s ++ r)) :=
        he.startsItem (by decide) (by decide) (s ++ r)
      have hnext := nextItem_item (by decide) hp hstarts
      have hvalue : readValue d e.key (t ++ (s ++ r)) = .ok (d.put e, s ++ r) :=
        readValue_append d blanks_nil he (s ++ r)
      rw [List.append_assoc, List.append_assoc, readPositional, hnext]
      simp only [hvalue, ih hkeys, List.foldl_cons]

/-- Values that are read by position are spelled as the items of a group, in the order of the keys.
-/
lemma exists_of_readPositional {d d' : Draft} {first : Bool} {keys : List Key} {s r : List Char}
    (h : readPositional d first keys s = .ok (d', r)) :
    ∃ t es, Items ValueSpelling ']' first t es ∧ es.map Entry.key <+: keys ∧
      d' = es.foldl Draft.put d ∧ s = t ++ r := by
  induction keys generalizing d first s with
  | nil =>
    rw [readPositional] at h
    split at h
    · cases h
    · rename_i hend
      cases h
      obtain ⟨b, hb, rfl⟩ := exists_of_endItems hend
      refine ⟨b ++ [']'], [], .close hb, List.nil_prefix, rfl, ?_⟩
      rw [List.append_assoc, List.singleton_append]
  | cons key keys ih =>
    rw [readPositional] at h
    split at h
    · cases h
    · rename_i u hnext
      cases h
      obtain ⟨b, hb, rfl⟩ := exists_of_nextItem_done hnext
      refine ⟨b ++ [']'], [], .close hb, List.nil_prefix, rfl, ?_⟩
      rw [List.append_assoc, List.singleton_append]
    · rename_i u hnext
      split at h
      · cases h
      · rename_i d₁ v hvalue
        obtain ⟨p, hp, rfl⟩ := exists_of_nextItem_more hnext
        obtain ⟨b, t, e, hb, ht, rfl, rfl, rfl⟩ := exists_of_readValue hvalue
        obtain ⟨s, es, hs, hkeys, rfl, rfl⟩ := ih h
        -- the value reader skips blanks, which the grammar counts to the separator
        refine ⟨p ++ b ++ (t ++ s), e :: es, .item (hp.append hb) ht hs, ?_, rfl, ?_⟩
        · exact List.cons_prefix_cons.mpr ⟨rfl, hkeys⟩
        · simp only [List.append_assoc]

/-! ### Whole texts -/

/-- The values of a configuration are read off the front of a text, behind blanks. -/
lemma readDraft_append {b s : List Char} {es : List Entry} (hb : Blanks b)
    (h : EntriesSpelling s es) (r : List Char) :
    readDraft (b ++ (s ++ r)) = .ok (es.foldl Draft.put {}, r) := by
  cases h with
  | byKey h hdistinct =>
    cases h with
    | @bracketed s es h =>
      have hskip : skipBlanks (b ++ ('{' :: s ++ r)) = '{' :: (s ++ r) :=
        skipBlanks_append_cons hb rfl _
      rw [readDraft, hskip]
      refine readMembers_append h hdistinct (fun e _ => ?_) r
      cases e <;> rfl
  | byPosition h hkeys =>
    cases h with
    | @bracketed s es h =>
      have hskip : skipBlanks (b ++ ('[' :: s ++ r)) = '[' :: (s ++ r) :=
        skipBlanks_append_cons hb rfl _
      rw [readDraft, hskip]
      exact readPositional_append h hkeys r

/-- What is read as a whole is spelled behind blanks in one of the two forms. -/
lemma exists_of_readDraft {d : Draft} {s r : List Char} (h : readDraft s = .ok (d, r)) :
    ∃ b t es, Blanks b ∧ EntriesSpelling t es ∧ d = es.foldl Draft.put {} ∧ s = b ++ (t ++ r) := by
  unfold readDraft at h
  split at h
  · cases h
  · rename_i u hskip
    obtain ⟨-, b, hb, rfl⟩ := skipBlanks_eq_cons_iff.mp hskip
    obtain ⟨t, es, ht, hkeys, rfl, rfl⟩ := exists_of_readPositional h
    exact ⟨b, '[' :: t, es, hb, .byPosition (.bracketed ht) hkeys, rfl, rfl⟩
  · rename_i u hskip
    obtain ⟨-, b, hb, rfl⟩ := skipBlanks_eq_cons_iff.mp hskip
    obtain ⟨t, es, ht, hdistinct, -, rfl, rfl⟩ := exists_of_readMembers h
    exact ⟨b, '{' :: t, es, hb, .byKey (.bracketed ht) hdistinct, rfl, rfl⟩
  · cases h

/-- A text is read as a configuration exactly if it spells that configuration. -/
lemma read_eq_ok_iff {text : String} {c : Config} :
    read text = .ok c ↔ TextSpelling text.toList c := by
  constructor
  · intro h
    unfold read at h
    split at h
    · cases h
    · rename_i d r hdraft
      split at h
      · rename_i hskip
        cases h
        obtain ⟨b, t, es, hb, ht, rfl, htext⟩ := exists_of_readDraft hdraft
        rw [htext, Draft.toConfig_foldl_put]
        exact .between hb ht (skipBlanks_eq_nil_iff.mp hskip)
      · cases h
  · intro h
    generalize htext : text.toList = s at h
    cases h with
    | @between b s b' es hb h hb' =>
      have hskip := skipBlanks_eq_nil_iff.mpr hb'
      have hconfig : (es.foldl Draft.put {}).toConfig = ofEntries es :=
        Draft.toConfig_foldl_put {} es
      rw [read, htext, readDraft_append hb h]
      simp only [hskip, hconfig]

/-! ### Accepted configurations -/

/-- The first fault of a configuration, in terms of its parts. -/
lemma fault?_eq (c : Config) :
    c.fault? =
      if c.origins = [] then some .noOrigins
      else if "" ∈ c.origins then some (.empty .origins)
      else if c.wrapperName = "" then some (.empty .wrapperName)
      else if c.wrapperSource = "" then some (.empty .wrapperSource)
      else none := by
  have hany : c.origins.any String.isEmpty = true ↔ "" ∈ c.origins := by
    rw [List.any_eq_true]
    constructor
    · rintro ⟨origin, horigin, hempty⟩
      rwa [String.isEmpty_iff.mp hempty] at horigin
    · exact fun h => ⟨"", h, rfl⟩
  simp only [fault?, List.isEmpty_iff, hany, String.isEmpty_iff]

/-- What becomes of a text.  It is read as a configuration exactly if it spells it; any other text
is malformed.  A configuration that is read is accepted exactly if it lists an origin and neither an
origin nor a name is empty; otherwise the first fault is reported, in the order of the keys. -/
theorem ofText_iff_textSpelling (text : String) :
    (∀ c, read text = .ok c ↔ TextSpelling text.toList c) ∧
    (∀ c, TextSpelling text.toList c →
      (ofText text = .ok c ↔
        c.origins ≠ [] ∧ "" ∉ c.origins ∧ c.wrapperName ≠ "" ∧ c.wrapperSource ≠ "") ∧
      (ofText text = .error (.unusable .noOrigins) ↔ c.origins = []) ∧
      (ofText text = .error (.unusable (.empty .origins)) ↔ c.origins ≠ [] ∧ "" ∈ c.origins) ∧
      (ofText text = .error (.unusable (.empty .wrapperName)) ↔
        c.origins ≠ [] ∧ "" ∉ c.origins ∧ c.wrapperName = "") ∧
      (ofText text = .error (.unusable (.empty .wrapperSource)) ↔
        c.origins ≠ [] ∧ "" ∉ c.origins ∧ c.wrapperName ≠ "" ∧ c.wrapperSource = "")) ∧
    ((∀ c, ¬ TextSpelling text.toList c) → ∃ cause, ofText text = .error (.malformed cause)) := by
  refine ⟨fun c => read_eq_ok_iff, fun c h => ?_, fun hnone => ?_⟩
  · have hread := read_eq_ok_iff.mpr h
    simp only [ofText, hread, fault?_eq]
    by_cases horigins : c.origins = []
    · simp [horigins]
    by_cases hempty : "" ∈ c.origins
    · simp [horigins, hempty]
    by_cases hname : c.wrapperName = ""
    · simp [horigins, hempty, hname]
    by_cases hsource : c.wrapperSource = ""
    · simp [horigins, hempty, hname, hsource]
    · simp [horigins, hempty, hname, hsource]
  · cases hread : read text with
    | ok c => exact absurd (read_eq_ok_iff.mp hread) (hnone c)
    | error cause => exact ⟨cause, by rw [ofText, hread]⟩

/-- An object that gives the helper an empty name, and one that is not closed. -/
theorem ofText_iff_textSpelling_of_empty_name :
    let text := "\x7b\"wrapper_name\": \"\"\x7d"
    let c : Config := { wrapperName := "" }
    TextSpelling text.toList c ∧
    ofText text = .error (.unusable (.empty .wrapperName)) ∧
    (∀ c, ¬ TextSpelling "\x7b".toList c) ∧ ∃ cause, ofText "\x7b" = .error (.malformed cause) := by
  intro text c
  have hspelling : TextSpelling text.toList c := by
    have hkey : StringSpelling ('"' :: ("wrapper_name".toList ++ ['"'])) Key.wrapperName.name :=
      .quoted (charsSpelling_self (by simp))
    have hvalue : ValueSpelling ('"' :: ([] ++ ['"'])) (.wrapperName "") :=
      .wrapperName (.quoted .nil)
    have hblank : Blanks [' '] := by simp [Blanks]
    have hmember := MemberSpelling.keyed hkey blanks_nil hblank hvalue
    have hgroup : Group MemberSpelling '{' '}' _ [.wrapperName ""] :=
      .bracketed (.item (.blanks blanks_nil) hmember (.close blanks_nil))
    have htext : text.toList = [] ++ ('{' :: ([] ++ (('"' :: ("wrapper_name".toList ++ ['"']) ++
        ([] ++ ':' :: ([' '] ++ ('"' :: ([] ++ ['"']))))) ++ ([] ++ ['}']))) ++ []) := by
      simp [text]
    rw [htext]
    exact .between blanks_nil (.byKey hgroup (by decide)) blanks_nil
  have hname := ((ofText_iff_textSpelling text).2.1 c hspelling).2.2.2.1
  have hnone : ∀ c, ¬ TextSpelling "\x7b".toList c := by
    intro c hc
    have hread : read "\x7b" = .error .endOfInput := by
      have htext : "\x7b".toList = ['{'] := rfl
      have hskip : skipBlanks ['{'] = ['{'] := rfl
      have hmembers : readMembers {} true [] = .error .endOfInput := by
        rw [readMembers]
        rfl
      simp only [read, htext, readDraft, hskip, hmembers]
    rw [((ofText_iff_textSpelling "\x7b").1 c).mpr hc] at hread
    cases hread
  exact ⟨hspelling, hname.mpr (by decide), hnone, (ofText_iff_textSpelling "\x7b").2.2 hnone⟩

end HookLabel.Config
