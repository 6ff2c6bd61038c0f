import ClickhouseArrow.Native.NameRoundTrip

/-!
# Labels of enums through their names

`Display` doubles the quotes of a label and leaves its backslashes alone; the parser of the
entries ends a label at the first quote that no backslash precedes and drops the backslash.
The two agree on the labels that hold neither of the two characters, and on no other one.
-/

namespace ClickhouseArrow

open Wire

/-! ## Reading a label -/

/-- The characters of a label as they are written, every quote doubled. -/
def doubled (label : List Char) : List Char :=
  label.flatMap fun c => if c = '\'' then ['\'', '\''] else [c]

theorem doubled_cons (c : Char) (label : List Char) :
    doubled (c :: label) =
      if c = '\'' then '\'' :: '\'' :: doubled label else c :: doubled label := by
  rw [doubled, List.flatMap_cons]
  split_ifs
  · rfl
  · rfl

/-- The label that the parser reads up to the closing quote, and what follows it; `escaped`
tells whether a backslash stands in front. -/
def readLabel (escaped : Bool) : List Char → Option (List Char × List Char)
  | [] => none
  | c :: cs =>
      if escaped then (readLabel false cs).map fun x => (c :: x.1, x.2)
      else if c = '\\' then readLabel true cs
      else if c = '\'' then some ([], cs)
      else (readLabel false cs).map fun x => (c :: x.1, x.2)

/-- A character behind a backslash belongs to the label. -/
theorem readLabel_escaped {c : Char} {cs label rest : List Char}
    (h : readLabel true (c :: cs) = some (label, rest)) :
    ∃ tail, label = c :: tail ∧ readLabel false cs = some (tail, rest) := by
  rw [readLabel, if_pos rfl] at h
  obtain ⟨x, hx, hpair⟩ := Option.map_eq_some_iff.mp h
  obtain ⟨rfl, rfl⟩ := Prod.mk.inj hpair
  exact ⟨x.1, rfl, hx⟩

theorem readLabel_plain {c : Char} (hquote : c ≠ '\'') (hbackslash : c ≠ '\\')
    {cs label rest : List Char} (h : readLabel false (c :: cs) = some (label, rest)) :
    ∃ tail, label = c :: tail ∧ readLabel false cs = some (tail, rest) := by
  rw [readLabel, if_neg Bool.false_ne_true, if_neg hbackslash, if_neg hquote] at h
  obtain ⟨x, hx, hpair⟩ := Option.map_eq_some_iff.mp h
  obtain ⟨rfl, rfl⟩ := Prod.mk.inj hpair
  exact ⟨x.1, rfl, hx⟩

/-- What stands behind a backslash in a written label is read as a backslash only where the
label has two of them in a row. -/
theorem readLabel_behind_backslash {label tail rest rest' : List Char}
    (h : readLabel true (doubled label ++ '\'' :: rest) = some ('\\' :: tail, rest')) :
    ∃ label', label = '\\' :: label' ∧
      readLabel false (doubled label' ++ '\'' :: rest) = some (tail, rest') := by
  cases label with
  | nil =>
      obtain ⟨_, hcons, -⟩ := readLabel_escaped h
      exact absurd (List.cons.inj hcons).1 (by decide)
  | cons d label' =>
      rw [doubled_cons] at h
      by_cases hquote : d = '\''
      · rw [if_pos hquote] at h
        obtain ⟨_, hcons, -⟩ := readLabel_escaped h
        exact absurd (List.cons.inj hcons).1 (by decide)
      · rw [if_neg hquote] at h
        obtain ⟨_, hcons, hread⟩ := readLabel_escaped h
        obtain ⟨rfl, rfl⟩ := List.cons.inj hcons
        exact ⟨label', rfl, hread⟩

/-- A written label is read as itself only when it is plain, and never as itself behind
further backslashes. -/
theorem plain_of_readLabel {label rest rest' : List Char} {k : Nat}
    (h : readLabel false (doubled label ++ '\'' :: rest) =
      some (List.replicate k '\\' ++ label, rest')) :
    k = 0 ∧ ∀ c ∈ label, c ≠ '\'' ∧ c ≠ '\\' := by
  -- A backslash takes the next one with it, so the lengths go down by two at a time.
  induction hn : label.length using Nat.strongRecOn generalizing label k with
  | ind n ih =>
      subst hn
      cases label with
      | nil =>
          obtain ⟨hname, -⟩ := Prod.mk.inj (Option.some.inj h)
          have hlength := congrArg List.length hname
          simp at hlength
          exact ⟨hlength.symm, by simp⟩
      | cons c label =>
          rw [doubled_cons] at h
          by_cases hquote : c = '\''
          · -- The first of the two quotes ends the label.
            rw [if_pos hquote] at h
            obtain ⟨hname, -⟩ := Prod.mk.inj (Option.some.inj h)
            exact absurd hname.symm (by simp)
          rw [if_neg hquote, List.cons_append] at h
          by_cases hbackslash : c = '\\'
          · subst hbackslash
            have hstack : List.replicate k '\\' ++ '\\' :: label =
                '\\' :: (List.replicate k '\\' ++ label) := by
              rw [← List.singleton_append, ← List.append_assoc, ← List.replicate_succ',
                List.replicate_succ, List.cons_append]
            rw [hstack] at h
            obtain ⟨label', rfl, hread⟩ := readLabel_behind_backslash h
            have hmore : List.replicate k '\\' ++ '\\' :: label' =
                List.replicate (k + 1) '\\' ++ label' := by
              rw [List.replicate_succ', List.append_assoc, List.singleton_append]
            rw [hmore] at hread
            have hzero := (ih label'.length (by simp only [List.length_cons]; omega) hread rfl).1
            omega
          · obtain ⟨tail, hname, hread⟩ := readLabel_plain hquote hbackslash h
            cases k with
            | succ k =>
                rw [List.replicate_succ, List.cons_append] at hname
                exact absurd (List.cons.inj hname).1.symm hbackslash
            | zero =>
                obtain rfl : label = tail := (List.cons.inj hname).2
                have hlabel := (ih label.length (by simp) (k := 0) hread rfl).2
                refine ⟨rfl, fun d hd => ?_⟩
                rcases List.mem_cons.mp hd with rfl | hmem
                · exact ⟨hquote, hbackslash⟩
                · exact hlabel d hmem

/-! ## Reading the entries -/

section Entries

variable {ι : Type} {parse : List Char → Except IntErrorKind ι} {value : ι → Int}

open ParseEnum

/-- Inside the quotes, the parser reads a label or fails. -/
theorem entries_inName {escaped : Bool} {name number input : List Char} {out : List (String × ι)}
    (h : entries parse .inName escaped name number input = .ok out) :
    ∃ label rest, readLabel escaped input = some (label, rest) ∧
      entries parse .expectEqual false (name ++ label) number rest = .ok out := by
  induction input generalizing escaped name with
  | nil => cases h
  | cons c input ih =>
      have hpush
          (h : entries parse .inName false (name ++ [c]) number input = .ok out) :
          ∃ label rest, (readLabel false input).map (fun x => (c :: x.1, x.2)) = some (label, rest) ∧
            entries parse .expectEqual false (name ++ label) number rest = .ok out := by
        obtain ⟨label, rest, hread, hrest⟩ := ih h
        rw [List.append_assoc, List.singleton_append] at hrest
        exact ⟨c :: label, rest, by rw [hread]; rfl, hrest⟩
      rw [entries] at h
      rw [readLabel]
      split_ifs at h ⊢ with hescaped hbackslash hquote
      · exact hpush h
      · exact ih h
      · exact ⟨[], input, rfl, by rwa [List.append_nil]⟩
      · exact hpush h

/-- Behind its label, an entry is the first of the entries that are read. -/
theorem entries_named {state : State} (hstate : state = .expectEqual ∨ state = .inValue)
    {escaped : Bool} {name number input : List Char} {e : String × ι} {out : List (String × ι)}
    (h : entries parse state escaped name number input = .ok (e :: out)) :
    e.1 = String.ofList name := by
  induction input generalizing state number with
  | nil =>
      rcases hstate with rfl | rfl
      · cases h
      · rw [entries] at h
        split_ifs at h
        · cases h
        · obtain ⟨n, -, hout⟩ := Outcome.bind_eq_ok.mp h
          obtain ⟨rfl, -⟩ := List.cons.inj (Except.ok.inj hout)
          rfl
  | cons c input ih =>
      rcases hstate with rfl | rfl
      · rw [entries] at h
        split_ifs at h
        · exact ih (.inr rfl) h
        · exact ih (.inl rfl) h
        · cases h
      · rw [entries] at h
        split_ifs at h
        · obtain ⟨n, -, hrest⟩ := Outcome.bind_eq_ok.mp h
          obtain ⟨more, -, hout⟩ := Outcome.bind_eq_ok.mp hrest
          obtain ⟨rfl, -⟩ := List.cons.inj (Except.ok.inj hout)
          rfl
        · exact ih (.inr rfl) h
        · exact ih (.inr rfl) h

/-- An entry that is read as it was written has a plain label. -/
theorem plainLabel_of_entries {e : String × ι} {rest : List Char} {out : List (String × ι)}
    (h : entries parse .expectQuote false [] [] (displayEntry value e ++ rest) = .ok (e :: out)) :
    plainLabel e.1 = true := by
  have hwritten : displayEntry value e ++ rest =
      '\'' :: (doubled e.1.toList ++ '\'' :: (" = ".toList ++ displayInt (value e.2) ++ rest)) := by
    simp [displayEntry, ChType.displayLabel, doubled]
  rw [hwritten, entries] at h
  simp only [if_true] at h
  obtain ⟨label, rest', hread, hrest⟩ := entries_inName h
  have hname := entries_named (.inl rfl) hrest
  rw [List.nil_append] at hname
  have hlabel : label = e.1.toList := by
    rw [hname, String.toList_ofList]
  rw [hlabel] at hread
  have hplain := (plain_of_readLabel (k := 0) hread).2
  simpa [plainLabel] using hplain

/-- Entries that are read as they were written have plain labels. -/
theorem plainLabels_of_entries {items : List (String × ι)}
    (hvalue : ∀ i, parse (displayInt (value i)) = .ok i)
    (h : entries parse .expectQuote false [] [] ([','].intercalate (items.map (displayEntry value))) =
      .ok items) : ∀ e ∈ items, plainLabel e.1 = true := by
  induction items with
  | nil => simp
  | cons e items ih =>
      have hparse : ParseEnum.value parse (displayInt (value e.2)) = .ok e.2 := by
        rw [ParseEnum.value, hvalue]
      cases items with
      | nil =>
          rw [List.map_singleton, List.intercalate_singleton, ← List.append_nil (displayEntry _ _)] at h
          simpa using plainLabel_of_entries h
      | cons f items =>
          rw [List.map_cons, List.map_cons, List.intercalate_cons_cons, List.append_assoc] at h
          have he := plainLabel_of_entries h
          rw [entries_displayEntry he, List.singleton_append, entries] at h
          simp only [if_true, hparse, Outcome.ok_bind] at h
          obtain ⟨more, hmore, hout⟩ := Outcome.bind_eq_ok.mp h
          obtain rfl := (List.cons.inj (Except.ok.inj hout)).2
          intro g hg
          rcases List.mem_cons.mp hg with rfl | hmem
          · exact he
          · exact ih hmore g hmem

theorem trimmed_displayEntries {items : List (String × ι)} (hne : items ≠ []) :
    Trimmed (ChType.displayEntries value items) := by
  have hquote : Trimmed ['\''] := Trimmed.singleton (by decide) (by decide)
  have hentry (e : String × ι) : Trimmed (displayEntry value e) := by
    have hplain := displayInt_plain (value e.2)
    have hnumber : Trimmed (displayInt (value e.2)) :=
      Trimmed.of_forall hplain.1 fun c hc => (hplain.2 c hc).2
    exact (hquote.append (doubled e.1.toList) hquote).append _ hnumber
  show Trimmed ([','].intercalate (items.map (displayEntry value)))
  induction items with
  | nil => exact absurd rfl hne
  | cons e items ih =>
      cases items with
      | nil => simpa using hentry e
      | cons f items =>
          rw [List.map_cons, List.map_cons, List.intercalate_cons_cons]
          exact (hentry e).append _ (ih (by simp))

theorem plainLabels_of_options {items : List (String × ι)}
    (hvalue : ∀ i, parse (displayInt (value i)) = .ok i)
    (h : options parse ('(' :: ChType.displayEntries value items ++ [')']) = .ok items) :
    ∀ e ∈ items, plainLabel e.1 = true := by
  by_cases hnil : items = []
  · subst hnil
    simp
  · have htrimmed : Trimmed (ChType.displayEntries value items) := trimmed_displayEntries hnil
    rw [options, stripParens_body _ (trim_eq_self htrimmed), Outcome.ok_bind,
      if_neg (by simpa using htrimmed.ne_nil)] at h
    obtain ⟨read, hread, hout⟩ := Outcome.bind_eq_ok.mp h
    rw [if_neg htrimmed.noComma] at hout
    obtain rfl := Except.ok.inj hout
    exact plainLabels_of_entries hvalue hread

end Entries

/-! ## Names of enums -/

namespace ChType

variable {lex : Lexicon}

/-- The name of the type is taken back as the type: alone, and where it stands as the argument
of an array, of a nullable type or of a map, whose other argument has a name that is taken
back. -/
structure NameSurvives (lex : Lexicon) (t : ChType) : Prop where
  alone : fromStr lex t.display = .ok t
  array : fromStr lex (ChType.array t).display = .ok (.array t)
  nullable : fromStr lex (ChType.nullable t).display = .ok (.nullable t)
  mapKey : ∀ u : ChType, u.Nameable lex → fromStr lex (ChType.map t u).display = .ok (.map t u)
  mapValue : ∀ u : ChType, u.Nameable lex → fromStr lex (ChType.map u t).display = .ok (.map u t)

theorem nameSurvives_of_nameable {t : ChType} (h : t.Nameable lex) : NameSurvives lex t where
  alone := fromStr_display h
  array := fromStr_display (t := .array t) h
  nullable := fromStr_display (t := .nullable t) h
  mapKey := fun u hu => fromStr_display (t := .map t u) ⟨h, hu⟩
  mapValue := fun u hu => fromStr_display (t := .map u t) ⟨hu, h⟩

/-- The labels hold neither quotes nor backslashes. -/
def plainLabels {ι : Type} (items : List (String × ι)) : Bool :=
  items.all fun e => plainLabel e.1

/-- The arm of an enum takes back only plain labels. -/
theorem plainLabels_of_arm {ι : Type} {parse : List Char → Except IntErrorKind ι} {value : ι → Int}
    {make : List (String × ι) → ChType} (hmake : Function.Injective make)
    (hvalue : ∀ i, parse (displayInt (value i)) = .ok i) {items : List (String × ι)}
    (h : make <$> ParseEnum.options parse ('(' :: displayEntries value items ++ [')']) =
      .ok (make items)) : plainLabels items = true := by
  cases hread : ParseEnum.options parse ('(' :: displayEntries value items ++ [')']) with
  | error e =>
      rw [hread] at h
      cases h
  | ok read =>
      rw [hread] at h
      obtain rfl := hmake (Except.ok.inj h)
      exact List.all_eq_true.mpr (plainLabels_of_options hvalue hread)

theorem plainLabels_of_enum8 {items : List (String × Int8)}
    (h : fromStr lex (ChType.enum8 items).display = .ok (.enum8 items)) :
    plainLabels items = true := by
  rw [fromStr, display, parse_applied (by decide)] at h
  exact plainLabels_of_arm (fun _ _ => enum8.inj) parse_int8 h

theorem plainLabels_of_enum16 {items : List (String × Int16)}
    (h : fromStr lex (ChType.enum16 items).display = .ok (.enum16 items)) :
    plainLabels items = true := by
  rw [fromStr, display, parse_applied (by decide)] at h
  exact plainLabels_of_arm (fun _ _ => enum16.inj) parse_int16 h

/-- **The labels of an enum survive its name** exactly when they hold neither quotes nor
backslashes. -/
theorem enums_surviveName_iff (lex : Lexicon) (items : List (String × Int8))
    (items' : List (String × Int16)) :
    (NameSurvives lex (.enum8 items) ↔ plainLabels items = true) ∧
      (NameSurvives lex (.enum16 items') ↔ plainLabels items' = true) := by
  constructor
  · exact ⟨fun h => plainLabels_of_enum8 h.alone, fun h => nameSurvives_of_nameable h⟩
  · exact ⟨fun h => plainLabels_of_enum16 h.alone, fun h => nameSurvives_of_nameable h⟩

/-- A quote makes the name one that the parser refuses, a backslash one that it reads as
another label. -/
theorem not_nameSurvives_samples :
    (¬ ∃ t, fromStr .ascii (ChType.enum8 [("it's", 1)]).display = .ok t) ∧
      fromStr .ascii (ChType.enum8 [("a\\b", 1)]).display = .ok (.enum8 [("ab", 1)]) ∧
      ¬ NameSurvives .ascii (.enum8 [("it's", 1)]) ∧
      ¬ NameSurvives .ascii (.enum8 [("a\\b", 1)]) := by
  have hquote : fromStr .ascii (ChType.enum8 [("it's", 1)]).display =
      typeError [.text "Expected '=' after variant name, found '", .chars ['\''], .text "'"] := by
    rfl
  have hbackslash : fromStr .ascii (ChType.enum8 [("a\\b", 1)]).display =
      .ok (.enum8 [("ab", 1)]) := by
    rfl
  refine ⟨?_, hbackslash, fun h => ?_, fun h => ?_⟩
  · rintro ⟨t, ht⟩
    rw [hquote] at ht
    cases ht
  · have halone := h.alone
    rw [hquote] at halone
    cases halone
  · have halone := h.alone
    rw [hbackslash] at halone
    simp at halone

end ChType

end ClickhouseArrow
