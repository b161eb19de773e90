import HookLabel.Proofs.ConfigTexts

/-!
# The first problem of a configuration

A configuration written as an object is judged member by member.  `LeadingMembers` is what may stand
in front of a member: any number of members that are in order, each with its comma.  Reading such a
text has no other effect than that the values of its members have been given
(`readMembers_leading`), so the member behind it is judged by the keys that stand in front of it and
by nothing that comes later.

Hence an unknown key, a repeated key and a value that starts with the wrong bracket are reported
whatever follows them (`ofText_of_faulty_member`), and so before any emptiness of the values is.
-/

namespace HookLabel.Config

open Json

/-! ### Members in front of a member -/

/-- The members in front of another member, each followed by its comma, and the blanks in front of
that other member. -/
inductive LeadingMembers : List Char → List Entry → Prop where
  | blanks {b : List Char} (hb : Blanks b) : LeadingMembers b []
  | member {b t b' s : List Char} {e : Entry} {es : List Entry} (hb : Blanks b)
      (he : MemberSpelling t e) (hb' : Blanks b') (h : LeadingMembers s es) :
      LeadingMembers (b ++ (t ++ (b' ++ ',' :: s))) (e :: es)

/-- Blanks in front of an item are skipped. -/
lemma readMembers_blanks (d : Draft) {b s : List Char} (hb : Blanks b) :
    readMembers d true (b ++ s) = readMembers d true s := by
  have hnext : nextItem '}' true (b ++ s) = nextItem '}' true s := by
    rw [nextItem, skipBlanks_append hb, ← nextItem]
  rw [readMembers_eq, hnext, ← readMembers_eq]

/-- Behind the comma of a member the next one is looked for as at the start of the object, but it
must be there. -/
lemma readMembers_comma (d : Draft) {b s : List Char} (hb : Blanks b)
    (hs : StartsItem '}' (skipBlanks s)) :
    readMembers d false (b ++ ',' :: s) = readMembers d true s := by
  obtain ⟨c, r, hskip, -, hc⟩ := hs
  have hcomma : skipBlanks (b ++ ',' :: s) = ',' :: s := skipBlanks_append_cons hb rfl s
  have hnext : nextItem '}' false (b ++ ',' :: s) = nextItem '}' true s := by
    simp only [nextItem, hcomma, hskip]
    simp [hc]
  rw [readMembers_eq, hnext, ← readMembers_eq]

/-- The members in front of an item start an item themselves. -/
lemma LeadingMembers.startsItem {p s : List Char} {es : List Entry} (hp : LeadingMembers p es)
    (hs : StartsItem '}' s) : StartsItem '}' (skipBlanks (p ++ s)) := by
  cases hp with
  | blanks hb =>
    obtain ⟨c, r, rfl, hblank, hc⟩ := hs
    rw [skipBlanks_append_cons hb hblank]
    exact ⟨c, r, rfl, hblank, hc⟩
  | @member b t b' p e es hb he hb' h =>
    have hstarts : StartsItem '}' (t ++ (b' ++ ',' :: p ++ s)) := he.startsItem (by decide) _
    obtain ⟨c, r, heq, hblank, hc⟩ := hstarts
    rw [List.append_assoc, List.append_assoc, heq, skipBlanks_append_cons hb hblank]
    exact ⟨c, r, rfl, hblank, hc⟩

/-- Reading the members in front of another one gives their values and comes to that other one. -/
lemma readMembers_leading {d : Draft} {p : List Char} {es : List Entry} (hp : LeadingMembers p es)
    (hdistinct : (es.map Entry.key).Nodup) (hfresh : ∀ e ∈ es, d.has e.key = false) {s : List Char}
    (hs : StartsItem '}' s) :
    readMembers d true (p ++ s) = readMembers (es.foldl Draft.put d) true s := by
  induction hp generalizing d with
  | blanks hb => exact readMembers_blanks d hb
  | @member b t b' p e es hb he hb' h ih =>
    have hlater := Draft.has_put_of_nodup hdistinct hfresh
    rw [List.map_cons, List.nodup_cons] at hdistinct
    have htext : b ++ (t ++ (b' ++ ',' :: p)) ++ s = b ++ (t ++ (b' ++ ',' :: (p ++ s))) := by
      simp only [List.append_assoc, List.cons_append]
    have hstarts : StartsItem '}' (t ++ (b' ++ ',' :: (p ++ s))) := he.startsItem (by decide) _
    have hnext := nextItem_item (by decide) (.blanks blanks_nil) hstarts
    rw [List.nil_append] at hnext
    have hmember := readMember_append he (hfresh e List.mem_cons_self) (b' ++ ',' :: (p ++ s))
    rw [htext, readMembers_blanks d hb, readMembers_eq, hnext]
    simp only [hmember]
    rw [readMembers_comma _ hb' (h.startsItem hs), ih hdistinct.2 hlater, List.foldl_cons]

/-! ### The member behind them -/

/-- After several entries the keys with a value are theirs and those that had one before. -/
lemma has_foldl_put (d : Draft) (es : List Entry) (k : Key) :
    (es.foldl Draft.put d).has k = true ↔ k ∈ es.map Entry.key ∨ d.has k = true := by
  induction es generalizing d with
  | nil => simp
  | cons e es ih =>
    rw [List.foldl_cons, ih, Draft.has_put, List.map_cons, List.mem_cons, Bool.or_eq_true,
      decide_eq_true_eq, eq_comm, or_left_comm, or_assoc]

/-- The problem of a member behind others that are in order is the problem of the text. -/
lemma ofText_eq_of_readMember {b p m : List Char} {es : List Entry} {cause : ReadError}
    (hb : Blanks b) (hp : LeadingMembers p es) (hdistinct : (es.map Entry.key).Nodup)
    (hm : StartsItem '}' m) (hread : readMember (es.foldl Draft.put {}) m = .error cause) :
    ofText (String.ofList (b ++ '{' :: (p ++ m))) = .error (.malformed cause) := by
  have hfresh : ∀ e ∈ es, ({} : Draft).has e.key = false := fun e _ => by cases e <;> rfl
  have hskip : skipBlanks (b ++ '{' :: (p ++ m)) = '{' :: (p ++ m) :=
    skipBlanks_append_cons hb rfl _
  have hnext := nextItem_item (by decide) (.blanks blanks_nil) hm
  rw [List.nil_append] at hnext
  have hmembers : readMembers {} true (p ++ m) = .error cause := by
    rw [readMembers_leading hp hdistinct hfresh hm, readMembers_eq, hnext]
    simp only [hread]
  have hdraft : readDraft (b ++ '{' :: (p ++ m)) = .error cause := by
    rw [readDraft, hskip]
    exact hmembers
  simp only [ofText, read, String.toList_ofList, hdraft]

/-- A name that belongs to no key is refused before the colon is read. -/
lemma readMember_unknownField (d : Draft) {k : List Char} {name : String}
    (hk : StringSpelling k name) (hname : name ∉ Key.all.map Key.name) (s : List Char) :
    readMember d (k ++ s) = .error (.unknownField name (Key.all.map Key.name)) := by
  have hunknown : Key.ofName? name = none := by
    rw [Option.eq_none_iff_forall_ne_some]
    intro key hkey
    rw [Key.ofName?_eq_some_iff.mp hkey] at hname
    cases key <;> exact hname (by decide)
  rw [readMember_quoted d hk, freshKey, hunknown]

/-- A key that has a value already is refused before the colon is read. -/
lemma readMember_duplicateField {d : Draft} {k : List Char} {key : Key}
    (hk : StringSpelling k key.name) (hkey : d.has key = true) (s : List Char) :
    readMember d (k ++ s) = .error (.duplicateField key.name) := by
  rw [readMember_quoted d hk, freshKey, Key.ofName?_name]
  simp only [hkey, if_true]

/-- Behind an accepted key, the member fails as its value does. -/
lemma readMember_of_readValue {d : Draft} {k b s : List Char} {key : Key} {cause : ReadError}
    (hk : StringSpelling k key.name) (hkey : d.has key = false) (hb : Blanks b)
    (hvalue : readValue d key s = .error cause) :
    readMember d (k ++ (b ++ ':' :: s)) = .error cause := by
  have hfresh : freshKey d key.name = .ok key := freshKey_eq_ok_iff.mpr ⟨rfl, hkey⟩
  rw [readMember_quoted d hk, hfresh]
  simp only [readColon_append hb, hvalue]

/-- An object is not accepted as the list of origins. -/
lemma readValue_origins_brace (d : Draft) {b : List Char} (hb : Blanks b) (s : List Char) :
    readValue d .origins (b ++ '{' :: s) = .error (.mismatch .map .sequence) := by
  have hskip : skipBlanks (b ++ '{' :: s) = '{' :: s := skipBlanks_append_cons hb rfl s
  have hsequence : readSequence (b ++ '{' :: s) = .error (.mismatch .map .sequence) := by
    rw [readSequence, hskip]
    rfl
  rw [readValue, hsequence]

/-- A bracket where a string is expected. -/
lemma readValue_of_bracket (d : Draft) {key : Key} (hkey : key ≠ .origins) {b : List Char}
    (hb : Blanks b) (s : List Char) :
    readValue d key (b ++ '{' :: s) = .error (.mismatch .map .string) ∧
      readValue d key (b ++ '[' :: s) = .error (.mismatch .sequence .string) := by
  have hbrace : readString (b ++ '{' :: s) = .error (.mismatch .map .string) := by
    have hskip : skipBlanks (b ++ '{' :: s) = '{' :: s := skipBlanks_append_cons hb rfl s
    rw [readString, hskip]
    rfl
  have hbracket : readString (b ++ '[' :: s) = .error (.mismatch .sequence .string) := by
    have hskip : skipBlanks (b ++ '[' :: s) = '[' :: s := skipBlanks_append_cons hb rfl s
    rw [readString, hskip]
    rfl
  cases key with
  | origins => exact absurd rfl hkey
  | wrapperName | wrapperSource => exact ⟨by rw [readValue, hbrace], by rw [readValue, hbracket]⟩

/-! ### The first problem -/

/-- Reading a text stops with the given problem.  It is one of the data and so has a wording. -/
def Reports (text : List Char) (cause : ReadError) (wording : String) : Prop :=
  ofText (String.ofList text) = .error (.malformed cause) ∧ cause.message? = some wording

/-- The text by which an unknown name is reported. -/
lemma message?_unknownField (name : String) :
    (ReadError.unknownField name (Key.all.map Key.name)).message? = some
      s!"unknown field `{name}`, expected one of `origins`, `wrapper_name`, `wrapper_source`" := by
  have hchoices : ", ".intercalate ((Key.all.map Key.name).map fun k => "`" ++ k ++ "`") =
      "`origins`, `wrapper_name`, `wrapper_source`" := by
    decide
  rw [ReadError.message?]
  simp only [hchoices]
  refine congrArg some ?_
  rw [← String.toList_inj]
  simp [toString]

/-- The first problem counts, whatever follows it.  Let a text begin with an opening brace and any
number of members in order, each with its comma.  If a key stands behind them that is unknown, that
is reported; if one of them has the key already, that is reported; and if its value starts with a
bracket of the wrong kind, that is reported.  So it is for every rest of the text, and even if the
configuration that stands in front would have a fault. -/
theorem ofText_of_faulty_member {b p : List Char} {es : List Entry} (hb : Blanks b)
    (hp : LeadingMembers p es) (hdistinct : (es.map Entry.key).Nodup) (s : List Char) :
    let object (member : List Char) : List Char := b ++ '{' :: (p ++ member)
    (∀ k name, StringSpelling k name → name ∉ Key.all.map Key.name →
      Reports (object (k ++ s)) (.unknownField name (Key.all.map Key.name))
        s!"unknown field `{name}`, expected one of `origins`, `wrapper_name`, `wrapper_source`") ∧
    (∀ k key, StringSpelling k key.name → key ∈ es.map Entry.key →
      Reports (object (k ++ s)) (.duplicateField key.name) s!"duplicate field `{key.name}`") ∧
    ∀ k key b₁ b₂, StringSpelling k key.name → key ∉ es.map Entry.key → Blanks b₁ → Blanks b₂ →
      let value (bracket : Char) : List Char := k ++ (b₁ ++ ':' :: (b₂ ++ bracket :: s))
      (key = .origins → Reports (object (value '{')) (.mismatch .map .sequence)
        "invalid type: map, expected a sequence") ∧
      (key ≠ .origins → Reports (object (value '{')) (.mismatch .map .string)
          "invalid type: map, expected a string" ∧
        Reports (object (value '[')) (.mismatch .sequence .string)
          "invalid type: sequence, expected a string") := by
  intro object
  have hstarts : ∀ {k : List Char} {name : String}, StringSpelling k name →
      ∀ r, StartsItem '}' (k ++ r) := fun hk r => hk.startsItem (by decide) r
  have hgiven : ∀ key : Key, (es.foldl Draft.put {}).has key = true ↔ key ∈ es.map Entry.key := by
    intro key
    have hnone : ({} : Draft).has key = false := by cases key <;> rfl
    rw [has_foldl_put, hnone, or_iff_left Bool.false_ne_true]
  refine ⟨?_, ?_, ?_⟩
  · intro k name hk hname
    have hmember := readMember_unknownField (es.foldl Draft.put {}) hk hname s
    have htext := ofText_eq_of_readMember hb hp hdistinct (hstarts hk s) hmember
    exact ⟨htext, message?_unknownField name⟩
  · intro k key hk hkey
    have hmember := readMember_duplicateField hk ((hgiven key).mpr hkey) s
    have htext := ofText_eq_of_readMember hb hp hdistinct (hstarts hk s) hmember
    exact ⟨htext, rfl⟩
  · intro k key b₁ b₂ hk hkey hb₁ hb₂ value
    have hfresh : (es.foldl Draft.put {}).has key = false := by
      rwa [← Bool.not_eq_true, hgiven]
    have hreport : ∀ {c : Char} {cause : ReadError},
        readValue (es.foldl Draft.put {}) key (b₂ ++ c :: s) = .error cause →
          ofText (String.ofList (object (value c))) = .error (.malformed cause) := by
      intro c cause hvalue
      have hmember := readMember_of_readValue hk hfresh hb₁ hvalue
      exact ofText_eq_of_readMember hb hp hdistinct (hstarts hk _) hmember
    constructor
    · rintro rfl
      exact ⟨hreport (readValue_origins_brace _ hb₂ s), rfl⟩
    · intro hne
      obtain ⟨hbrace, hbracket⟩ := readValue_of_bracket (es.foldl Draft.put {}) hne hb₂ s
      exact ⟨⟨hreport hbrace, rfl⟩, hreport hbracket, rfl⟩

/-- Behind an empty name of the helper, texts that break off: at an unknown key, at the same key
again, whose first letter is now an escape, and at an object in the place of the origins. -/
theorem ofText_of_faulty_member_of_empty_name :
    Reports "\x7b\"wrapper_name\":\"\",\"id\"".toList (.unknownField "id" (Key.all.map Key.name))
      "unknown field `id`, expected one of `origins`, `wrapper_name`, `wrapper_source`" ∧
    Reports "\x7b\"wrapper_name\":\"\",\"\\u0077rapper_name\"".toList
      (.duplicateField "wrapper_name") "duplicate field `wrapper_name`" ∧
    Reports "\x7b\"wrapper_name\":\"\",\"origins\":\x7b".toList (.mismatch .map .sequence)
      "invalid type: map, expected a sequence" := by
  have hkey : StringSpelling ('"' :: ("wrapper_name".toList ++ ['"'])) Key.wrapperName.name :=
    .quoted (charsSpelling_self (by simp))
  have hvalue : ValueSpelling ('"' :: ([] ++ ['"'])) (.wrapperName "") :=
    .wrapperName (.quoted .nil)
  have hmember := MemberSpelling.keyed hkey blanks_nil blanks_nil hvalue
  have hp := LeadingMembers.member blanks_nil hmember blanks_nil (.blanks blanks_nil)
  obtain ⟨hunknown, hduplicate, hbracket⟩ := ofText_of_faulty_member blanks_nil hp (by decide) []
  refine ⟨?_, ?_, ?_⟩
  · have hid : StringSpelling ('"' :: ("id".toList ++ ['"'])) "id" :=
      .quoted (charsSpelling_self (by simp))
    have hwording : "unknown field `" ++ "id" ++
        "`, expected one of `origins`, `wrapper_name`, `wrapper_source`" =
          "unknown field `id`, expected one of `origins`, `wrapper_name`, `wrapper_source`" := by
      decide
    have h := hunknown _ "id" hid (by decide)
    simpa [toString, hwording] using h
  · have hzero : IsHexDigit '0' 0 := by decide
    have hseven : IsHexDigit '7' 7 := by decide
    have hw : CharSpelling ('\\' :: 'u' :: ['0', '0', '7', '7']) 'w' :=
      .unit (.digits hzero hzero hseven hseven)
    have hname : CharsSpelling "rapper_name".toList "rapper_name".toList :=
      charsSpelling_self (by simp)
    have hescaped : StringSpelling _ Key.wrapperName.name := .quoted (.cons hw hname)
    have hwording : "duplicate field `" ++ Key.wrapperName.name ++ "`" =
        "duplicate field `wrapper_name`" := by
      decide
    have h := hduplicate _ .wrapperName hescaped (by decide)
    simpa [toString, hwording, Key.name] using h
  · have horigins : StringSpelling ('"' :: ("origins".toList ++ ['"'])) Key.origins.name :=
      .quoted (charsSpelling_self (by simp))
    have h := (hbracket _ .origins [] [] horigins (by decide) blanks_nil blanks_nil).1 rfl
    simpa using h

end HookLabel.Config
