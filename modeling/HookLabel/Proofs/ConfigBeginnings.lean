import HookLabel.Proofs.ConfigTexts
import HookLabel.Proofs.JsonBeginnings

/-!
# Beginnings and continuations of configurations

The text of a configuration shows where it ends.  A text that stops anywhere before its closing
bracket is always found to have ended too early, whichever character it stops at: it is never taken
for a configuration, and nothing else is wrong with it (`readDraft_beginning`).  Behind the bracket
blanks change nothing, and whatever else follows makes the text ill-formed.
-/

namespace HookLabel.Config

open Json

/-! ### Values by key -/

/-- A value that stops early ends the input. -/
lemma readValue_beginning (d : Draft) {b s p : List Char} {e : Entry} (hb : Blanks b)
    (h : ValueSpelling s e) (hp : IsBeginning p (b ++ s)) :
    readValue d e.key p = .error .endOfInput := by
  cases h with
  | origins h => simp only [Entry.key, readValue, readSequence_beginning hb h hp]
  | wrapperName h | wrapperSource h =>
    simp only [Entry.key, readValue, readString_beginning hb h hp]

/-- A key that stops early ends the input. -/
lemma readMember_quoted_beginning (d : Draft) {k p : List Char} {name : String}
    (hk : StringSpelling k name) (hne : p ≠ []) (hp : IsBeginning p k) :
    readMember d p = .error .endOfInput := by
  cases hk with
  | quoted ht =>
    rcases hp.cons with rfl | ⟨q, rfl, hq⟩
    · exact absurd rfl hne
    · rw [readMember, readChars_beginning ht hq]

/-- A member that stops in its key, before or behind its colon, or in its value. -/
lemma readMember_beginning {d : Draft} {s p : List Char} {e : Entry} (h : MemberSpelling s e)
    (hfresh : d.has e.key = false) (hne : p ≠ []) (hp : IsBeginning p s) :
    readMember d p = .error .endOfInput := by
  cases h with
  | @keyed k b b' s e hkey hb hb' hvalue =>
    have hkeyFresh : freshKey d e.key.name = .ok e.key := freshKey_eq_ok_iff.mpr ⟨rfl, hfresh⟩
    rcases hp.append with hp | ⟨u, rfl, hu⟩
    · exact readMember_quoted_beginning d hkey hne hp
    · rw [readMember_quoted d hkey, hkeyFresh]
      rcases skipBlanks_beginning hb rfl hu with hskip | ⟨v, hv, hskip⟩
      · simp only [readColon, hskip]
      · simp only [readColon, hskip, readValue_beginning d hb' hvalue hv]

/-- Members with different keys that stop early end the input. -/
lemma readMembers_beginning {d : Draft} {first : Bool} {s p : List Char} {es : List Entry}
    (h : Items MemberSpelling '}' first s es) (hdistinct : (es.map Entry.key).Nodup)
    (hfresh : ∀ e ∈ es, d.has e.key = false) (hp : IsBeginning p s) :
    readMembers d first p = .error .endOfInput := by
  induction h generalizing d p with
  | @close first b hb =>
    have hnext : nextItem '}' first p = .error .endOfInput := nextItem_close_beginning rfl hb hp
    rw [readMembers_eq, hnext]
  | @item first sep t s e es hsep he h ih =>
    have hlater := Draft.has_put_of_nodup hdistinct hfresh
    have he' := hfresh e List.mem_cons_self
    have hstarts : StartsItem '}' (t ++ s) := he.startsItem (by decide) s
    rcases nextItem_beginning (by decide) hsep hstarts hp with hnext | ⟨u, hne, hu, hnext⟩
    · rw [readMembers_eq, hnext]
    · rw [readMembers_eq, hnext]
      rcases hu.append with hu | ⟨q, rfl, hq⟩
      · simp only [readMember_beginning he he' hne hu]
      · rw [List.map_cons, List.nodup_cons] at hdistinct
        simp only [readMember_append he he' q, ih hdistinct.2 hlater hq]

/-! ### Values by position -/

/-- Values by position that stop early end the input. -/
lemma readPositional_beginning {d : Draft} {first : Bool} {s p : List Char} {es : List Entry}
    {keys : List Key} (h : Items ValueSpelling ']' first s es) (hkeys : es.map Entry.key <+: keys)
    (hp : IsBeginning p s) : readPositional d first keys p = .error .endOfInput := by
  induction h generalizing d keys p with
  | @close first b hb =>
    cases keys with
    | nil => rw [readPositional, endItems_close_beginning rfl hb hp]
    | cons key keys =>
      have hnext : nextItem ']' first p = .error .endOfInput := nextItem_close_beginning rfl hb hp
      rw [readPositional, hnext]
  | @item first sep t s e es hsep he h ih =>
    cases keys with
    | nil => exact absurd (List.prefix_nil.mp hkeys) (List.cons_ne_nil _ _)
    | cons key keys =>
      rw [List.map_cons, List.cons_prefix_cons] at hkeys
      obtain ⟨rfl, hkeys⟩ := hkeys
      have hstarts : StartsItem ']' (t ++ s) := he.startsItem (by decide) (by decide) s
      rcases nextItem_beginning (by decide) hsep hstarts hp with hnext | ⟨u, -, hu, hnext⟩
      · rw [readPositional, hnext]
      · rw [readPositional, hnext]
        rcases hu.append with hu | ⟨q, rfl, hq⟩
        · simp only [readValue_beginning d blanks_nil he hu]
        · have hvalue : readValue d e.key (t ++ q) = .ok (d.put e, q) :=
            readValue_append d blanks_nil he q
          simp only [hvalue, ih hkeys hq]

/-! ### Whole texts -/

/-- The values of a configuration, in either form, that stop before their closing bracket. -/
lemma readDraft_beginning {b s p : List Char} {es : List Entry} (hb : Blanks b)
    (h : EntriesSpelling s es) (hp : IsBeginning p (b ++ s)) :
    readDraft p = .error .endOfInput := by
  cases h with
  | byKey h hdistinct =>
    cases h with
    | bracketed h =>
      rcases skipBlanks_beginning hb rfl hp with hskip | ⟨q, hq, hskip⟩
      · rw [readDraft, hskip]
      · rw [readDraft, hskip]
        refine readMembers_beginning h hdistinct (fun e _ => ?_) hq
        cases e <;> rfl
  | byPosition h hkeys =>
    cases h with
    | bracketed h =>
      rcases skipBlanks_beginning hb rfl hp with hskip | ⟨q, hq, hskip⟩
      · rw [readDraft, hskip]
      · rw [readDraft, hskip]
        exact readPositional_beginning h hkeys hq

/-- A text is malformed exactly if it cannot be read. -/
lemma ofText_eq_malformed_iff {text : String} {cause : ReadError} :
    ofText text = .error (.malformed cause) ↔ read text = .error cause := by
  unfold ofText
  split
  · rename_i cause' hread
    rw [hread]
    simp
  · rename_i config hread
    rw [hread]
    split <;> simp

/-- Texts that are read alike describe the same configuration. -/
lemma ofText_congr {text other : String} (h : read other = read text) :
    ofText other = ofText text := by
  rw [ofText, ofText, h]

/-- A text that is not malformed spells a configuration, and if it ends with a bracket there are no
blanks behind that spelling. -/
lemma exists_closed_spelling {text : String}
    (hread : ∀ cause, ofText text ≠ .error (.malformed cause))
    (hclosed : text.toList.getLast? = some ']' ∨ text.toList.getLast? = some '}') :
    ∃ b s es, Blanks b ∧ EntriesSpelling s es ∧ text.toList = b ++ s := by
  have hspelling : ∃ c, TextSpelling text.toList c := by
    cases h : read text with
    | ok c => exact ⟨c, read_eq_ok_iff.mp h⟩
    | error cause => exact absurd (ofText_eq_malformed_iff.mpr h) (hread cause)
  obtain ⟨c, hc⟩ := hspelling
  generalize htext : text.toList = t at hc hclosed
  cases hc with
  | @between b s b' es hb h hb' =>
    refine ⟨b, s, es, hb, h, ?_⟩
    rcases List.eq_nil_or_concat b' with rfl | ⟨l, last, rfl⟩
    · rw [List.append_nil]
    · rw [List.concat_eq_append] at hb' hclosed
      have hblank : last ∈ [' ', '\t', '\n', '\r'] := hb' last (by simp)
      have hlast : (b ++ (s ++ (l ++ [last]))).getLast? = some last := by simp
      rw [hlast] at hclosed
      rcases hclosed with hclosed | hclosed
      · rw [Option.some.inj hclosed] at hblank
        exact absurd hblank (by decide)
      · rw [Option.some.inj hclosed] at hblank
        exact absurd hblank (by decide)

/-- The text of a configuration shows where it ends, also if the configuration has a fault.  Let a
text be read and end with its closing bracket.  Cut anywhere before that bracket it is found to have
ended too early, and nothing else is reported; with blanks behind it it has the same result; with
anything else behind it, whatever follows that, it is ill-formed. -/
theorem ofText_beginning_continuation {text : String}
    (hread : ∀ cause, ofText text ≠ .error (.malformed cause))
    (hclosed : text.toList.getLast? = some ']' ∨ text.toList.getLast? = some '}') :
    (∀ p : String, p.toList <+: text.toList → p ≠ text →
      ofText p = .error (.malformed .endOfInput)) ∧
    (∀ b : String, Blanks b.toList → ofText (text ++ b) = ofText text) ∧
    ∀ (b rest : String) (c : Char), Blanks b.toList → c ∉ [' ', '\t', '\n', '\r'] →
      ofText (text ++ b ++ String.singleton c ++ rest) = .error (.malformed .illFormed) := by
  obtain ⟨b₀, s, es, hb₀, hs, htext⟩ := exists_closed_spelling hread hclosed
  refine ⟨?_, ?_, ?_⟩
  · intro p hp hne
    have hbeginning : IsBeginning p.toList (b₀ ++ s) := by
      rw [← htext]
      exact ⟨hp, fun heq => hne (String.toList_inj.mp heq)⟩
    rw [ofText_eq_malformed_iff, read, readDraft_beginning hb₀ hs hbeginning]
  · intro b hb
    have hbefore : read text = .ok (ofEntries es) := by
      rw [read_eq_ok_iff, htext, ← List.append_nil s]
      exact .between hb₀ hs blanks_nil
    have hbehind : read (text ++ b) = .ok (ofEntries es) := by
      rw [read_eq_ok_iff, String.toList_append, htext, List.append_assoc]
      exact .between hb₀ hs hb
    exact ofText_congr (hbehind.trans hbefore.symm)
  · intro b rest c hb hc
    have hblank : isBlank c = false := by
      rw [← Bool.not_eq_true, isBlank_iff]
      exact hc
    have hchars : (text ++ b ++ String.singleton c ++ rest).toList =
        b₀ ++ (s ++ (b.toList ++ c :: rest.toList)) := by
      simp [htext]
    have hskip : skipBlanks (b.toList ++ c :: rest.toList) = c :: rest.toList :=
      skipBlanks_append_cons hb hblank rest.toList
    rw [ofText_eq_malformed_iff, read, hchars, readDraft_append hb₀ hs]
    simp only [hskip]

/-- An object that lists one module, spelled by the two halves of a pair: cut in the second half,
followed by a line break, and followed by a comma. -/
theorem ofText_beginning_continuation_of_pair :
    let text := "\x7b\"origins\": [\"\\ud83d\\ude00\"]\x7d"
    ofText text = .ok { origins := ["😀"] } ∧
    ofText "\x7b\"origins\": [\"\\ud83d\\ude" = .error (.malformed .endOfInput) ∧
    ofText (text ++ "\n") = ofText text ∧
    ofText (text ++ " " ++ "," ++ "\x7b") = .error (.malformed .illFormed) := by
  intro text
  have hresult : ofText text = .ok { origins := ["😀"] } := by
    have hsome : (ofText text).toOption = some { origins := ["😀"] } := by decide +kernel
    cases h : ofText text with
    | error e =>
      rw [h] at hsome
      cases hsome
    | ok c =>
      rw [h] at hsome
      exact congrArg Except.ok (Option.some.inj hsome)
  have hread : ∀ cause, ofText text ≠ .error (.malformed cause) := by
    intro cause h
    rw [hresult] at h
    cases h
  have hclosed : text.toList.getLast? = some ']' ∨ text.toList.getLast? = some '}' :=
    .inr (by decide)
  obtain ⟨hbeginning, hblanks, hrest⟩ := ofText_beginning_continuation hread hclosed
  refine ⟨hresult, hbeginning _ ?_ ?_, hblanks "\n" ?_, hrest " " "\x7b" ',' ?_ ?_⟩
  · decide
  · decide
  · simp [Blanks]
  · simp [Blanks]
  · decide

end HookLabel.Config
