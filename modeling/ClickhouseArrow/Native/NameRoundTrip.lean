import ClickhouseArrow.Native.TypeNames

/-!
# The parser takes back the name of a type

A name is read back as the type that it was written for when every part of it can be:
scales in range, labels of enums without quotes and backslashes, time zones that the
table knows, and none of the types that share the name of another one.
-/

namespace ClickhouseArrow

open Wire

/-! ## Numbers -/

section Numbers

variable {overflow : IntErrorKind} {max : Nat}

theorem parseDigits_append (acc : Nat) (xs ys : List Char) :
    parseDigits overflow max acc (xs ++ ys) =
      (parseDigits overflow max acc xs >>= fun acc' => parseDigits overflow max acc' ys) := by
  induction xs generalizing acc with
  | nil => rfl
  | cons x xs ih =>
      simp only [List.cons_append, parseDigits]
      split
      · split
        · rfl
        · exact ih _
      · rfl

theorem digitChar_value {d : Nat} (h : d < 10) :
    (Nat.digitChar d).isDigit = true ∧ (Nat.digitChar d).toNat - 48 = d := by
  revert d
  decide

theorem parseDigits_displayNat (overflow : IntErrorKind) {n : Nat} (h : n ≤ max) :
    parseDigits overflow max 0 (displayNat n) = .ok n := by
  induction n using Nat.strongRecOn with
  | ind n ih =>
      rw [displayNat]
      by_cases hsmall : n < 10
      · obtain ⟨hdigit, hvalue⟩ := digitChar_value hsmall
        rw [Nat.toDigits_of_lt_base hsmall]
        simp [parseDigits, hdigit, hvalue, Nat.not_lt.mpr h]
      · obtain ⟨hdigit, hvalue⟩ := digitChar_value (Nat.mod_lt n (by decide : 0 < 10))
        have hinit := ih (n / 10) (by omega) (by omega)
        rw [displayNat] at hinit
        rw [Nat.toDigits_of_base_le (by decide) (by omega), parseDigits_append, hinit]
        have hn : 10 * (n / 10) + n % 10 = n := Nat.div_add_mod n 10
        simp [parseDigits, hdigit, hvalue, hn, Nat.not_lt.mpr h, bind, Except.bind]

theorem isDigit_of_mem_displayNat {n : Nat} {c : Char} (h : c ∈ displayNat n) :
    c.isDigit = true :=
  Nat.isDigit_of_mem_toDigits (by decide) (by decide) h

theorem displayNat_ne_nil (n : Nat) : displayNat n ≠ [] := Nat.toDigits_ne_nil

theorem parseUnsigned_displayNat {n : Nat} (h : n ≤ max) :
    parseUnsigned max (displayNat n) = .ok n := by
  have hparse := parseDigits_displayNat .posOverflow h
  have hdigits := fun c (hc : c ∈ displayNat n) => isDigit_of_mem_displayNat hc
  revert hparse hdigits
  cases hd : displayNat n with
  | nil => exact absurd hd (displayNat_ne_nil n)
  | cons c cs =>
      intro hparse hdigits
      have hplus : c ≠ '+' := by
        rintro rfl
        simpa using hdigits '+' List.mem_cons_self
      unfold parseUnsigned
      split <;> simp_all

theorem parseSigned_displayInt {i : Int} (hlow : -(max : Int) - 1 ≤ i) (hhigh : i ≤ max) :
    parseSigned max (displayInt i) = .ok i := by
  cases i with
  | ofNat n =>
      have hn : n ≤ max := by simpa using hhigh
      have hparse := parseDigits_displayNat .posOverflow hn
      have hdigits := fun c (hc : c ∈ displayNat n) => isDigit_of_mem_displayNat hc
      rw [displayInt]
      revert hparse hdigits
      cases hd : displayNat n with
      | nil => exact absurd hd (displayNat_ne_nil n)
      | cons c cs =>
          intro hparse hdigits
          have hplus : c ≠ '+' := by
            rintro rfl
            simpa using hdigits '+' List.mem_cons_self
          have hminus : c ≠ '-' := by
            rintro rfl
            simpa using hdigits '-' List.mem_cons_self
          unfold parseSigned
          split <;> simp_all
  | negSucc n =>
      have hn : n + 1 ≤ max + 1 := by omega
      have hparse := parseDigits_displayNat .negOverflow hn
      rw [displayInt]
      cases hd : displayNat (n + 1) with
      | nil => exact absurd hd (displayNat_ne_nil (n + 1))
      | cons c cs =>
          rw [hd] at hparse
          simp only [parseSigned, hparse]
          rfl

end Numbers

/-! ## Arguments between commas -/

/-- Text that the splitter of arguments passes over, at every depth of parentheses from
`depth` on. -/
def Passed (depth : Nat) (s : List Char) : Prop :=
  ∀ n slice rest, depth ≤ n →
    ArgsIterator.items n false false slice (s ++ rest) =
      ArgsIterator.items n false false (slice ++ s) rest

theorem Passed.nil (depth : Nat) : Passed depth [] := by
  intro n slice rest _
  simp

theorem Passed.append {depth : Nat} {s t : List Char} (hs : Passed depth s) (ht : Passed depth t) :
    Passed depth (s ++ t) := by
  intro n slice rest hn
  rw [List.append_assoc, hs n slice _ hn, ht n _ rest hn, List.append_assoc]

theorem Passed.mono {depth depth' : Nat} {s : List Char} (h : Passed depth s)
    (hle : depth ≤ depth') : Passed depth' s :=
  fun n slice rest hn => h n slice rest (hle.trans hn)

/-- Characters that mean nothing to the splitter. -/
def isPlainChar (c : Char) : Bool := c != '\'' && c != '(' && c != ')' && c != ','

theorem Passed.plain {s : List Char} (h : ∀ c ∈ s, isPlainChar c = true) : Passed 0 s := by
  induction s with
  | nil => exact Passed.nil 0
  | cons c s ih =>
      have hc : c ≠ '\'' ∧ c ≠ '(' ∧ c ≠ ')' ∧ c ≠ ',' := by
        simpa [isPlainChar, and_assoc] using h c List.mem_cons_self
      intro n slice rest hn
      rw [List.cons_append, ArgsIterator.items]
      simp only [Bool.false_eq_true, if_false, hc.1, hc.2.1, hc.2.2.1, hc.2.2.2, false_and]
      rw [ih (fun d hd => h d (List.mem_cons_of_mem c hd)) n _ rest hn, List.append_assoc,
        List.singleton_append]

/-- A comma inside parentheses. -/
theorem Passed.comma : Passed 1 [','] := by
  intro n slice rest hn
  have hne : n ≠ 0 := by omega
  simp [ArgsIterator.items, hne]

theorem Passed.parens {s : List Char} (h : Passed 1 s) : Passed 0 ('(' :: s ++ [')']) := by
  intro n slice rest _
  simp only [List.cons_append, List.append_assoc]
  rw [ArgsIterator.items]
  simp only [Bool.false_eq_true, if_false, if_true, Char.reduceEq]
  rw [h (n + 1) _ _ (by omega)]
  simp [ArgsIterator.items]

/-- Text in quotes that holds neither a quote nor a backslash. -/
theorem Passed.quoted {s : List Char} (h : ∀ c ∈ s, c ≠ '\'' ∧ c ≠ '\\') :
    Passed 0 ('\'' :: s ++ ['\'']) := by
  have hinside : ∀ n slice rest, ArgsIterator.items n true false slice (s ++ '\'' :: rest) =
      ArgsIterator.items n false false (slice ++ s ++ ['\'']) rest := by
    induction s with
    | nil =>
        intro n slice rest
        simp [ArgsIterator.items]
    | cons c s ih =>
        intro n slice rest
        have hc := h c List.mem_cons_self
        rw [List.cons_append, ArgsIterator.items]
        simp only [if_true, hc.2, if_false, hc.1, decide_false, Bool.false_and, Bool.not_false]
        rw [ih fun d hd => h d (List.mem_cons_of_mem c hd)]
        simp
  intro n slice rest _
  simp only [List.cons_append, List.append_assoc, List.nil_append]
  rw [ArgsIterator.items]
  simp only [Bool.false_eq_true, if_false, if_true]
  rw [hinside]
  simp

/-- Text that is not empty, with no white space at its ends and no comma at its end. -/
structure Trimmed (s : List Char) : Prop where
  ne_nil : s ≠ []
  head : ∀ c, s.head? = some c → isWhitespace c = false
  last : ∀ c, s.getLast? = some c → isWhitespace c = false
  noComma : s.getLast? ≠ some ','

theorem trim_eq_self {s : List Char} (h : Trimmed s) : trim s = s := by
  have hleft : s.dropWhile isWhitespace = s := by
    cases s with
    | nil => rfl
    | cons c s => rw [List.dropWhile_cons_of_neg (by simp [h.head c rfl])]
  rw [trim, hleft, List.rdropWhile_eq_self_iff]
  intro hne
  rw [h.last _ (List.getLast?_eq_getLast_of_ne_nil hne)]
  simp

/-- An argument that the splitter yields as it is. -/
structure IsArg (s : List Char) : Prop where
  passed : Passed 0 s
  trimmed : Trimmed s

theorem items_arg {s : List Char} (h : IsArg s) :
    ArgsIterator.items 0 false false [] s = [.ok s] := by
  have hpass := h.passed 0 [] [] (Nat.le_refl 0)
  rw [List.append_nil, List.nil_append] at hpass
  rw [hpass, ArgsIterator.items, trim_eq_self h.trimmed]
  have hcomma : s ≠ [','] := by
    rintro rfl
    exact h.trimmed.noComma rfl
  simp [h.trimmed.ne_nil, hcomma]

theorem items_arg_comma {s : List Char} (h : IsArg s) (rest : List Char) :
    ArgsIterator.items 0 false false [] (s ++ ',' :: rest) =
      .ok s :: ArgsIterator.items 0 false false [] rest := by
  rw [h.passed 0 [] _ (Nat.le_refl 0), List.nil_append, ArgsIterator.items,
    trim_eq_self h.trimmed]
  simp [h.trimmed.ne_nil]

theorem items_intercalate {args : List (List Char)} (h : ∀ a ∈ args, IsArg a) :
    ArgsIterator.items 0 false false [] ([','].intercalate args) = args.map .ok := by
  induction args with
  | nil => simp [ArgsIterator.items, trim]
  | cons a args ih =>
      have ha := h a List.mem_cons_self
      cases args with
      | nil => simpa using items_arg ha
      | cons b args =>
          have hrest := ih fun c hc => h c (List.mem_cons_of_mem a hc)
          rw [List.intercalate_cons_cons, List.append_assoc, List.singleton_append,
            items_arg_comma ha, hrest]
          rfl

/-- Text between parentheses, as a list of arguments. -/
structure IsBody (s : List Char) : Prop where
  inside : Passed 1 s
  trim : trim s = s
  noComma : s.getLast? ≠ some ','

theorem Trimmed.append {s t : List Char} (u : List Char) (hs : Trimmed s) (ht : Trimmed t) :
    Trimmed (s ++ u ++ t) where
  ne_nil := by simp [hs.ne_nil]
  head := by
    intro c hc
    rw [List.append_assoc, List.head?_append_of_ne_nil _ hs.ne_nil] at hc
    exact hs.head c hc
  last := by
    intro c hc
    rw [List.getLast?_append_of_ne_nil _ ht.ne_nil] at hc
    exact ht.last c hc
  noComma := by
    rw [List.getLast?_append_of_ne_nil _ ht.ne_nil]
    exact ht.noComma

/-- Text of characters that are neither white space nor a comma. -/
theorem Trimmed.of_forall {s : List Char} (hne : s ≠ [])
    (h : ∀ c ∈ s, isWhitespace c = false ∧ c ≠ ',') : Trimmed s where
  ne_nil := hne
  head := fun c hc => (h c (List.mem_of_mem_head? hc)).1
  last := fun c hc => (h c (List.mem_of_getLast? hc)).1
  noComma := fun hc => (h ',' (List.mem_of_getLast? hc)).2 rfl

theorem Trimmed.singleton {c : Char} (h : isWhitespace c = false) (hc : c ≠ ',') : Trimmed [c] :=
  Trimmed.of_forall (by simp) (by simp [h, hc])

theorem stripParens_body {s : List Char} (malformed : String) (h : trim s = s) :
    stripParens malformed ('(' :: s ++ [')']) = .ok s := by
  have hlast : ('(' :: s ++ [')']).getLast? = some ')' := by
    rw [List.getLast?_append_of_ne_nil _ (by simp)]
    rfl
  rw [stripParens, if_pos ⟨rfl, hlast⟩]
  simp [h]

theorem parseArgsIter_body {s : List Char} (h : IsBody s) :
    parseArgsIter ('(' :: s ++ [')']) = .ok (ArgsIterator.items 0 false false [] s) := by
  rw [parseArgsIter, stripParens_body _ h.trim]
  simp [h.noComma]

theorem IsBody.nil : IsBody [] := ⟨Passed.nil 1, rfl, by simp⟩

theorem IsBody.intercalate {args : List (List Char)} (h : ∀ a ∈ args, IsArg a) :
    IsBody ([','].intercalate args) := by
  suffices hargs : args ≠ [] → Passed 1 ([','].intercalate args) ∧
      Trimmed ([','].intercalate args) by
    by_cases hnil : args = []
    · subst hnil
      exact IsBody.nil
    · obtain ⟨hpass, htrimmed⟩ := hargs hnil
      exact ⟨hpass, trim_eq_self htrimmed, htrimmed.noComma⟩
  intro hne
  induction args with
  | nil => exact absurd rfl hne
  | cons a args ih =>
      have ha := h a List.mem_cons_self
      cases args with
      | nil => simpa using ⟨ha.passed.mono (Nat.zero_le 1), ha.trimmed⟩
      | cons b args =>
          obtain ⟨hpass, htrimmed⟩ := ih (fun c hc => h c (List.mem_cons_of_mem a hc)) (by simp)
          rw [List.intercalate_cons_cons]
          exact ⟨((ha.passed.mono (Nat.zero_le 1)).append Passed.comma).append hpass,
            ha.trimmed.append _ htrimmed⟩

theorem traverse_oks (args : List (List Char)) :
    Outcome.traverse id (args.map (.ok : List Char → Result (List Char))) = .ok args := by
  have hid : Outcome.traverse (fun a => id (.ok a : Result (List Char))) args =
      .ok (args.map id) := Outcome.traverse_eq_ok_map fun _ _ => rfl
  rw [Outcome.traverse_map, hid, List.map_id]

/-- The arguments of a name are parsed. -/
theorem parseVariableArgs_intercalate {args : List (List Char)} (h : ∀ a ∈ args, IsArg a) :
    parseVariableArgs ('(' :: [','].intercalate args ++ [')']) = .ok args := by
  rw [parseVariableArgs, parseArgsIter_body (IsBody.intercalate h), items_intercalate h,
    Outcome.ok_bind, traverse_oks]

theorem parseFixedArgs_intercalate (args : List (List Char)) (h : ∀ a ∈ args, IsArg a) :
    parseFixedArgs args.length ('(' :: [','].intercalate args ++ [')']) = .ok args := by
  rw [parseFixedArgs, parseArgsIter_body (IsBody.intercalate h), items_intercalate h,
    Outcome.ok_bind, List.take_of_length_le (by simp), List.drop_of_length_le (by simp),
    traverse_oks]
  rfl

theorem oneArg_arg {a : List Char} (h : IsArg a)
    (complaint : List (List Char) → List Fragment) :
    FromStr.oneArg complaint ('(' :: a ++ [')']) = .ok a := by
  have hargs := parseFixedArgs_intercalate [a] (by simpa using h)
  simp only [List.intercalate_singleton, List.length_singleton] at hargs
  rw [FromStr.oneArg, hargs]
  rfl

theorem twoArgs {a b : List Char} (ha : IsArg a) (hb : IsArg b) :
    parseFixedArgs 2 ('(' :: (a ++ ',' :: b) ++ [')']) = .ok [a, b] := by
  have hargs := parseFixedArgs_intercalate [a, b] (by simp [ha, hb])
  simpa using hargs

/-! ## Names with arguments -/

/-- Letters and digits of ASCII, the first one a letter. -/
def isName (name : String) : Bool :=
  (name.toList.head?.any fun c => c.isAlpha) &&
    name.toList.all fun c =>
      (c.isAlpha || c.isDigit) && isPlainChar c && !isWhitespace c && c != ','

theorem eatIdentifier_go {lex : Lexicon} {name rest : List Char}
    (hname : ∀ c ∈ name, (c.isAlpha || c.isDigit) = true)
    (hrest : ∀ c, rest.head? = some c → c = '(') :
    eatIdentifier.go lex false (name ++ rest) = (name, rest) := by
  induction name with
  | nil =>
      cases rest with
      | nil => rfl
      | cons c rest =>
          obtain rfl := hrest c rfl
          rfl
  | cons c name ih =>
      have hc : (lex.isAlphabetic c || c == '_' || c == '$' || (!false && lex.isNumeric c)) =
          true := by
        have hletter := hname c List.mem_cons_self
        rw [Lexicon.isAlphabetic, Lexicon.isNumeric]
        rcases Bool.or_eq_true _ _ ▸ hletter with halpha | hdigit
        · simp [halpha]
        · simp [hdigit]
      rw [List.cons_append, eatIdentifier.go, if_pos hc,
        ih fun d hd => hname d (List.mem_cons_of_mem c hd)]

/-- The identifier of a name, before a parenthesis or the end. -/
theorem eatIdentifier_name {lex : Lexicon} {name : String} (hname : isName name = true)
    {rest : List Char} (hrest : ∀ c, rest.head? = some c → c = '(') :
    eatIdentifier lex (name.toList ++ rest) = (name.toList, rest) := by
  simp only [isName, Bool.and_eq_true, List.all_eq_true] at hname
  obtain ⟨hhead, hletters⟩ := hname
  revert hhead hletters
  cases name.toList with
  | nil => simp
  | cons c cs =>
      intro hhead hletters
      have hc : (lex.isAlphabetic c || c == '_' || c == '$' || (!true && lex.isNumeric c)) =
          true := by
        have halpha : c.isAlpha = true := by simpa using hhead
        simp [Lexicon.isAlphabetic, halpha]
      rw [eatIdentifier, List.cons_append, eatIdentifier.go, if_pos hc,
        eatIdentifier_go (fun d hd => (hletters d (List.mem_cons_of_mem c hd)).1.1.1) hrest]

theorem isName_ne_nil {name : String} (h : isName name = true) : name.toList ≠ [] := by
  intro hnil
  simp [isName, hnil] at h

theorem passed_name {name : String} (h : isName name = true) : Passed 0 name.toList := by
  simp only [isName, Bool.and_eq_true, List.all_eq_true] at h
  exact Passed.plain fun c hc => (h.2 c hc).1.1.2

theorem trimmed_name {name : String} (h : isName name = true) : Trimmed name.toList := by
  refine Trimmed.of_forall (isName_ne_nil h) fun c hc => ?_
  simp only [isName, Bool.and_eq_true, List.all_eq_true] at h
  exact ⟨by simpa using (h.2 c hc).1.2, by simpa using (h.2 c hc).2⟩

theorem IsArg.name (name : String) (h : isName name = true) : IsArg name.toList :=
  ⟨passed_name h, trimmed_name h⟩

theorem IsArg.applied {name : String} (h : isName name = true) {args : List Char}
    (hargs : Passed 1 args) : IsArg (ChType.applied name args) where
  passed := by
    rw [ChType.applied, List.append_assoc]
    exact (passed_name h).append (Passed.parens hargs)
  trimmed := by
    have hparen : Trimmed [')'] := Trimmed.singleton (by decide) (by decide)
    exact (trimmed_name h).append _ hparen

theorem trimmed_parens (args : List Char) : Trimmed ('(' :: args ++ [')']) :=
  (Trimmed.singleton (c := '(') (by decide) (by decide)).append args
    (Trimmed.singleton (by decide) (by decide))

theorem parse_applied {lex : Lexicon} {fuel : Nat} {name : String} (h : isName name = true)
    (args : List Char) :
    FromStr.parse lex (fuel + 1) (ChType.applied name args) =
      FromStr.withArgs lex (FromStr.parse lex fuel) name ('(' :: args ++ [')']) := by
  have hident : eatIdentifier lex (name.toList ++ ('(' :: args ++ [')'])) =
      (name.toList, '(' :: args ++ [')']) :=
    eatIdentifier_name h fun c hc => by simpa using hc.symm
  rw [ChType.applied, List.append_assoc, FromStr.parse, List.cons_append] 
  simp only [List.cons_append] at hident
  rw [hident]
  have htrim := trim_eq_self (trimmed_parens args)
  simp only [List.cons_append] at htrim
  simp [htrim, isName_ne_nil h]

theorem parse_name {lex : Lexicon} {fuel : Nat} (name : String) (h : isName name = true) :
    FromStr.parse lex (fuel + 1) name.toList = FromStr.bare name := by
  have hident : eatIdentifier lex (name.toList ++ []) = (name.toList, []) :=
    eatIdentifier_name h (by simp)
  rw [List.append_nil] at hident
  rw [FromStr.parse, hident]
  simp [isName_ne_nil h, trim]

/-! ## Types whose names can be read back -/

/-- A label that is written as it is. -/
def plainLabel (label : String) : Bool := label.toList.all fun c => c != '\'' && c != '\\'

namespace ChType

/-- The table knows the zone by its name, and the name can stand in quotes. -/
def NameableTz (lex : Lexicon) (tz : Tz) : Prop :=
  lex.timezone tz.name.toList = some tz ∧ plainLabel tz.name = true

/-- The name of the type is read back as the type. -/
def Nameable (lex : Lexicon) : ChType → Prop
  | .decimal32 s => 0 < s ∧ s ≤ 9
  | .decimal64 s => 0 < s ∧ s ≤ 18
  | .decimal128 s => 0 < s ∧ s ≤ 38
  | .decimal256 s => 0 < s ∧ s ≤ 76
  | .fixedSizedString n => 0 < n ∧ n ≤ usizeMax
  -- Their names are those of `String` and of a fixed-size string.
  | .binary | .fixedSizedBinary _ => False
  | .dateTime tz => NameableTz lex tz
  | .dateTime64 precision tz => precision ≤ usizeMax ∧ NameableTz lex tz
  | .enum8 items => items.all (fun e => plainLabel e.1) = true
  | .enum16 items => items.all (fun e => plainLabel e.1) = true
  | .nullable inner | .lowCardinality inner | .array inner => inner.Nameable lex
  | .tuple items => nameables lex items
  | .map key value => key.Nameable lex ∧ value.Nameable lex
  | _ => True
where
  nameables (lex : Lexicon) : List ChType → Prop
    | [] => True
    | t :: ts => t.Nameable lex ∧ nameables lex ts

/-- The zones and labels in the name of the type can stand in quotes. -/
def Quotable : ChType → Prop
  | .dateTime tz | .dateTime64 _ tz => plainLabel tz.name = true
  | .enum8 items => items.all (fun e => plainLabel e.1) = true
  | .enum16 items => items.all (fun e => plainLabel e.1) = true
  | .nullable inner | .lowCardinality inner | .array inner => inner.Quotable
  | .tuple items => quotables items
  | .map key value => key.Quotable ∧ value.Quotable
  | _ => True
where
  quotables : List ChType → Prop
    | [] => True
    | t :: ts => t.Quotable ∧ quotables ts

end ChType

/-! ## Arguments that are not types -/

theorem digit_plain {c : Char} (h : c.isDigit = true) :
    isPlainChar c = true ∧ isWhitespace c = false ∧ c ≠ ',' := by
  have hrange : 48 ≤ c.toNat ∧ c.toNat ≤ 57 := by
    simp only [Char.isDigit, Bool.and_eq_true, decide_eq_true_eq] at h
    exact ⟨UInt32.le_iff_toNat_le.mp h.1, UInt32.le_iff_toNat_le.mp h.2⟩
  have hne : ∀ d : Char, d.toNat < 48 → c ≠ d := by
    rintro d hd rfl
    omega
  refine ⟨?_, ?_, hne ',' (by decide)⟩
  · simp only [isPlainChar, Bool.and_eq_true, bne_iff_ne]
    exact ⟨⟨⟨hne '\'' (by decide), hne '(' (by decide)⟩, hne ')' (by decide)⟩, hne ',' (by decide)⟩
  · simp only [isWhitespace, Bool.or_eq_false_iff, Bool.and_eq_false_iff, decide_eq_false_iff_not,
      beq_eq_false_iff_ne]
    omega

/-- A number is plain text. -/
theorem displayInt_plain (i : Int) :
    displayInt i ≠ [] ∧
      ∀ c ∈ displayInt i, isPlainChar c = true ∧ isWhitespace c = false ∧ c ≠ ',' := by
  cases i with
  | ofNat n => exact ⟨displayNat_ne_nil n, fun c hc => digit_plain (isDigit_of_mem_displayNat hc)⟩
  | negSucc n =>
      refine ⟨by simp [displayInt], fun c hc => ?_⟩
      rcases List.mem_cons.mp hc with rfl | hmem
      · decide
      · exact digit_plain (isDigit_of_mem_displayNat hmem)

theorem IsArg.number (n : Nat) : IsArg (displayNat n) := by
  have hplain := (displayInt_plain (.ofNat n)).2
  exact ⟨Passed.plain fun c hc => (hplain c hc).1,
    Trimmed.of_forall (displayNat_ne_nil n) fun c hc => (hplain c hc).2⟩

theorem IsArg.timezone {tz : Tz} (h : plainLabel tz.name = true) : IsArg (ChType.displayTz tz) where
  passed := Passed.quoted fun c hc => by
    simpa [plainLabel] using List.all_eq_true.mp h c hc
  trimmed := (Trimmed.singleton (c := '\'') (by decide) (by decide)).append tz.name.toList
    (Trimmed.singleton (by decide) (by decide))

theorem timezone_displayTz {lex : Lexicon} {tz : Tz} (h : ChType.NameableTz lex tz)
    (name : String) : FromStr.timezone lex name (ChType.displayTz tz) = .ok tz := by
  have hlast : (ChType.displayTz tz).getLast? = some '\'' := by
    rw [ChType.displayTz, List.getLast?_append_of_ne_nil _ (by simp)]
    rfl
  have hlength : ¬ (ChType.displayTz tz).length < 2 := by
    simp [ChType.displayTz]
  have hinner : (ChType.displayTz tz).tail.dropLast = tz.name.toList := by
    simp [ChType.displayTz]
  have hquoted : ¬¬ ((ChType.displayTz tz).head? = some '\'' ∧
      (ChType.displayTz tz).getLast? = some '\'') := not_not.mpr ⟨rfl, hlast⟩
  rw [FromStr.timezone, if_neg hquoted, if_neg hlength, hinner, h.1]

theorem displayLabel_plain {label : String} (h : plainLabel label = true) :
    ChType.displayLabel label = '\'' :: label.toList ++ ['\''] := by
  have hflat : label.toList.flatMap (fun c => if c = '\'' then ['\'', '\''] else [c]) =
      label.toList := by
    have hmap : label.toList.flatMap (fun c => if c = '\'' then ['\'', '\''] else [c]) =
        label.toList.flatMap fun c => [c] := by
      refine List.flatMap_congr fun c hc => ?_
      have hc : c ≠ '\'' ∧ c ≠ '\\' := by
        simpa [plainLabel] using List.all_eq_true.mp h c hc
      rw [if_neg hc.1]
    rw [hmap, List.flatMap_singleton']
  rw [ChType.displayLabel, hflat]

section Entries

variable {ι : Type} {parse : List Char → Except IntErrorKind ι} {value : ι → Int}

open ParseEnum

theorem entries_label {label : List Char} (h : ∀ c ∈ label, c ≠ '\'' ∧ c ≠ '\\')
    (name rest : List Char) :
    entries parse .inName false name [] (label ++ '\'' :: rest) =
      entries parse .expectEqual false (name ++ label) [] rest := by
  induction label generalizing name with
  | nil => simp [entries]
  | cons c label ih =>
      have hc := h c List.mem_cons_self
      rw [List.cons_append, entries]
      simp only [Bool.false_eq_true, if_false, hc.1, hc.2]
      rw [ih fun d hd => h d (List.mem_cons_of_mem c hd)]
      simp

theorem entries_number {number : List Char}
    (h : ∀ c ∈ number, isWhitespace c = false ∧ c ≠ ',') (name before rest : List Char) :
    entries parse .inValue false name before (number ++ rest) =
      entries parse .inValue false name (before ++ number) rest := by
  induction number generalizing before with
  | nil => simp
  | cons c number ih =>
      have hc := h c List.mem_cons_self
      rw [List.cons_append, entries]
      simp only [hc.1, hc.2, Bool.false_eq_true, if_false]
      rw [ih fun d hd => h d (List.mem_cons_of_mem c hd)]
      simp

/-- One entry of an enum. -/
def displayEntry (value : ι → Int) (e : String × ι) : List Char :=
  ChType.displayLabel e.1 ++ " = ".toList ++ displayInt (value e.2)

theorem entries_displayEntry {e : String × ι} (h : plainLabel e.1 = true) (rest : List Char) :
    entries parse .expectQuote false [] [] (displayEntry value e ++ rest) =
      entries parse .inValue false e.1.toList (displayInt (value e.2)) rest := by
  have hlabel : ∀ c ∈ e.1.toList, c ≠ '\'' ∧ c ≠ '\\' := fun c hc => by
    simpa [plainLabel] using List.all_eq_true.mp h c hc
  have hequal : " = ".toList = [' ', '=', ' '] := rfl
  rw [displayEntry, displayLabel_plain h, hequal]
  simp only [List.cons_append, List.append_assoc, List.nil_append]
  rw [entries]
  simp only [if_true]
  rw [entries_label hlabel]
  have hspace : isWhitespace ' ' = true := by decide
  simp only [entries, hspace, Char.reduceEq, if_true, if_false, List.nil_append]
  rw [entries_number fun c hc => ((displayInt_plain (value e.2)).2 c hc).2]
  rfl

theorem entries_display {items : List (String × ι)} (hne : items ≠ [])
    (hvalue : ∀ i, parse (displayInt (value i)) = .ok i)
    (h : ∀ e ∈ items, plainLabel e.1 = true) :
    entries parse .expectQuote false [] [] ([','].intercalate (items.map (displayEntry value))) =
      .ok items := by
  induction items with
  | nil => exact absurd rfl hne
  | cons e items ih =>
      have he := h e List.mem_cons_self
      have hparse : ParseEnum.value parse (displayInt (value e.2)) = .ok e.2 := by
        rw [ParseEnum.value, hvalue]
      cases items with
      | nil =>
          have hentry : entries parse .expectQuote false [] [] (displayEntry value e ++ []) =
              entries parse .inValue false e.1.toList (displayInt (value e.2)) [] :=
            entries_displayEntry he []
          rw [List.append_nil] at hentry
          rw [List.map_singleton, List.intercalate_singleton, hentry, entries]
          simp [(displayInt_plain (value e.2)).1, hparse]
      | cons f items =>
          have hrest := ih (by simp) fun g hg => h g (List.mem_cons_of_mem e hg)
          rw [List.map_cons] at hrest
          rw [List.map_cons, List.map_cons, List.intercalate_cons_cons, List.append_assoc,
            entries_displayEntry he, List.singleton_append, entries]
          simp [hparse, hrest]

theorem IsArg.entry {e : String × ι} (h : plainLabel e.1 = true) :
    IsArg (displayEntry value e) := by
  have hlabel : ∀ c ∈ e.1.toList, c ≠ '\'' ∧ c ≠ '\\' := fun c hc => by
    simpa [plainLabel] using List.all_eq_true.mp h c hc
  have hplain := displayInt_plain (value e.2)
  have hquote : Trimmed ('\'' :: e.1.toList ++ ['\'']) :=
    (Trimmed.singleton (c := '\'') (by decide) (by decide)).append e.1.toList
      (Trimmed.singleton (by decide) (by decide))
  rw [displayEntry, displayLabel_plain h]
  refine ⟨((Passed.quoted hlabel).append (Passed.plain (by simp [isPlainChar]))).append
    (Passed.plain fun c hc => (hplain.2 c hc).1), hquote.append _ ?_⟩
  exact Trimmed.of_forall hplain.1 fun c hc => (hplain.2 c hc).2

theorem options_display {items : List (String × ι)}
    (hvalue : ∀ i, parse (displayInt (value i)) = .ok i)
    (h : ∀ e ∈ items, plainLabel e.1 = true) :
    options parse ('(' :: ChType.displayEntries value items ++ [')']) = .ok items := by
  have hentries : ChType.displayEntries value items =
      [','].intercalate (items.map (displayEntry value)) := rfl
  have hbody : IsBody (ChType.displayEntries value items) := by
    rw [hentries]
    refine IsBody.intercalate fun a ha => ?_
    obtain ⟨e, he, rfl⟩ := List.mem_map.mp ha
    exact IsArg.entry (h e he)
  rw [options, stripParens_body _ hbody.trim, Outcome.ok_bind]
  by_cases hnil : items = []
  · subst hnil
    rfl
  · have hne : ChType.displayEntries value items ≠ [] := by
      intro hempty
      have hparse := entries_display hnil hvalue h
      rw [← hentries, hempty] at hparse
      simp [entries, typeError, Outcome.fail] at hparse
    rw [if_neg (by simpa using hne), hentries, entries_display hnil hvalue h, ← hentries,
      Outcome.ok_bind, if_neg hbody.noComma]

end Entries

/-! ## Types -/

namespace ChType

variable {lex : Lexicon}

theorem nameables_iff {items : List ChType} :
    Nameable.nameables lex items ↔ ∀ t ∈ items, t.Nameable lex := by
  induction items with
  | nil => simp [Nameable.nameables]
  | cons t ts ih => simp [Nameable.nameables, ih]

theorem quotables_iff {items : List ChType} :
    Quotable.quotables items ↔ ∀ t ∈ items, t.Quotable := by
  induction items with
  | nil => simp [Quotable.quotables]
  | cons t ts ih => simp [Quotable.quotables, ih]

theorem Nameable.quotable {t : ChType} (h : t.Nameable lex) : t.Quotable := by
  induction t using inductionOn with
  | hleaf t hflat =>
      cases t with
      | nullable | lowCardinality | array | tuple | map => cases hflat
      | dateTime tz => exact h.2
      | dateTime64 precision tz => exact h.2.2
      | enum8 items | enum16 items => exact h
      | _ => trivial
  | hnullable inner ih => exact ih h
  | hlowCardinality inner _ ih => exact ih h
  | harray inner ih => exact ih h
  | htuple items ih => exact quotables_iff.mpr fun t ht => ih t ht (nameables_iff.mp h t ht)
  | hmap key value ihkey ihvalue => exact ⟨ihkey h.1, ihvalue h.2⟩

theorem displays_eq_map (items : List ChType) : display.displays items = items.map display := by
  induction items with
  | nil => rfl
  | cons t ts ih => rw [display.displays, ih, List.map_cons]

/-- A number is parsed as the word that it is displayed of. -/
theorem parse_word {ι : Type} {ofInt : Int → ι} {i : Int} {idx : ι} {limit : Nat}
    (hword : ofInt i = idx) (hlow : -(limit : Int) - 1 ≤ i) (hhigh : i ≤ limit) :
    ofInt <$> parseSigned limit (displayInt i) = .ok idx := by
  rw [parseSigned_displayInt hlow hhigh]
  exact congrArg Except.ok hword

theorem parse_int8 (i : Int8) : Int8.ofInt <$> parseSigned 127 (displayInt i.toInt) = .ok i :=
  parse_word (Int8.ofInt_toInt i) i.le_toInt (Int.lt_add_one_iff.mp i.toInt_lt)

theorem parse_int16 (i : Int16) :
    Int16.ofInt <$> parseSigned 32767 (displayInt i.toInt) = .ok i :=
  parse_word (Int16.ofInt_toInt i) i.le_toInt (Int.lt_add_one_iff.mp i.toInt_lt)

theorem display_tuple (items : List ChType) :
    display (.tuple items) = applied "Tuple" ([','].intercalate (items.map display)) := by
  rw [display, displays_eq_map]

/-- The name of a type stands as an argument in the name of another one. -/
theorem Quotable.isArg {t : ChType} (h : t.Quotable) : IsArg t.display := by
  -- What stands between the parentheses closes every section that it opens.
  have hnumber : ∀ n, Passed 1 (displayNat n) := fun n =>
    (IsArg.number n).passed.mono (Nat.zero_le 1)
  have hentries : ∀ {ι : Type} (value : ι → Int) (items : List (String × ι)),
      items.all (fun e => plainLabel e.1) = true → Passed 1 (displayEntries value items) := by
    intro ι value items hall
    refine (IsBody.intercalate fun a ha => ?_).inside
    obtain ⟨e, he, rfl⟩ := List.mem_map.mp ha
    exact IsArg.entry (List.all_eq_true.mp hall e he)
  induction t using inductionOn with
  | hleaf t hflat =>
      cases t with
      | nullable | lowCardinality | array | tuple | map => cases hflat
      | decimal32 s | decimal64 s | decimal128 s | decimal256 s | fixedSizedString s
      | fixedSizedBinary s =>
          exact IsArg.applied (by decide) (hnumber s)
      | dateTime tz =>
          exact IsArg.applied (by decide) ((IsArg.timezone h).passed.mono (Nat.zero_le 1))
      | dateTime64 precision tz =>
          have htz := (IsArg.timezone h).passed.mono (Nat.zero_le 1)
          have hargs := ((hnumber precision).append Passed.comma).append htz
          rw [List.append_assoc] at hargs
          exact IsArg.applied (by decide) hargs
      | enum8 items => exact IsArg.applied (by decide) (hentries _ items h)
      | enum16 items => exact IsArg.applied (by decide) (hentries _ items h)
      | _ => exact IsArg.name (bareName _) (by decide)
  | hnullable inner ih =>
      exact IsArg.applied (by decide) ((ih h).passed.mono (Nat.zero_le 1))
  | hlowCardinality inner _ ih =>
      exact IsArg.applied (by decide) ((ih h).passed.mono (Nat.zero_le 1))
  | harray inner ih =>
      exact IsArg.applied (by decide) ((ih h).passed.mono (Nat.zero_le 1))
  | htuple items ih =>
      rw [display_tuple]
      refine IsArg.applied (by decide) (IsBody.intercalate fun a ha => ?_).inside
      obtain ⟨t, ht, rfl⟩ := List.mem_map.mp ha
      exact ih t ht (quotables_iff.mp h t ht)
  | hmap key value ihkey ihvalue =>
      have hkey := (ihkey h.1).passed.mono (Nat.zero_le 1)
      have hvalue := (ihvalue h.2).passed.mono (Nat.zero_le 1)
      have hargs := (hkey.append Passed.comma).append hvalue
      rw [List.append_assoc] at hargs
      exact IsArg.applied (by decide) hargs

theorem display_isArg {t : ChType} (h : t.Nameable lex) : IsArg t.display := h.quotable.isArg

theorem scaled_displayNat {name : String} {max s : Nat} (hlow : 0 < s) (hhigh : s ≤ max)
    (hmax : max ≤ 76) :
    FromStr.scaled name max ('(' :: displayNat s ++ [')']) = .ok s := by
  have hs : s ≤ usizeMax := by
    have : 76 ≤ usizeMax := by decide
    omega
  rw [FromStr.scaled, oneArg_arg (IsArg.number s), Outcome.ok_bind, parseUsize,
    parseUnsigned_displayNat hs]
  simp only [Outcome.ok_bind]
  rw [if_neg (by omega)]

theorem withArgs_scaled {make : Nat → ChType} {name : String} {max s : Nat}
    (h : 0 < s ∧ s ≤ max) (hmax : max ≤ 76) :
    (make <$> FromStr.scaled name max ('(' :: displayNat s ++ [')'])) = .ok (make s) := by
  rw [scaled_displayNat h.1 h.2 hmax]
  rfl

theorem length_applied (name : String) (args : List Char) :
    args.length < (applied name args).length := by
  simp [applied]
  omega

theorem length_lt_intercalate {a : List Char} {args : List (List Char)} (h : a ∈ args) :
    a.length ≤ ([','].intercalate args).length := by
  induction args with
  | nil => simp at h
  | cons b args ih =>
      cases args with
      | nil =>
          obtain rfl : a = b := by simpa using h
          simp
      | cons c args =>
          rw [List.intercalate_cons_cons, List.length_append, List.length_append]
          rcases List.mem_cons.mp h with rfl | hmem
          · omega
          · have := ih hmem
            omega

/-- The parser takes back the name, with fuel for its length. -/
theorem parse_display {t : ChType} (h : t.Nameable lex) {fuel : Nat}
    (hfuel : t.display.length < fuel) : FromStr.parse lex fuel t.display = .ok t := by
  obtain ⟨fuel, rfl⟩ : ∃ k, fuel = k + 1 := ⟨fuel - 1, by omega⟩
  induction t using inductionOn generalizing fuel with
  | hleaf t hflat =>
      cases t with
      | nullable | lowCardinality | array | tuple | map => cases hflat
      -- The printed argument of a leaf is parsed by the arm of its identifier.
      | decimal32 s | decimal64 s | decimal128 s | decimal256 s =>
          rw [display, parse_applied (by decide)]
          exact withArgs_scaled h (by decide)
      | fixedSizedString n =>
          rw [display, parse_applied (by decide)]
          simp only [FromStr.withArgs]
          rw [FromStr.fixedString, oneArg_arg (IsArg.number n), Outcome.ok_bind, parseUsize,
            parseUnsigned_displayNat h.2]
          simp only [Outcome.ok_bind]
          rw [if_neg (by have := h.1; omega)]
      | binary | fixedSizedBinary n => exact h.elim
      | dateTime tz =>
          rw [display, parse_applied (by decide)]
          simp only [FromStr.withArgs]
          have hargs := parseFixedArgs_intercalate [displayTz tz]
            (by simpa using IsArg.timezone h.2)
          simp only [List.intercalate_singleton, List.length_singleton] at hargs
          rw [FromStr.dateTime, hargs, Outcome.ok_bind]
          simp only [timezone_displayTz h, Outcome.ok_bind]
      | dateTime64 precision tz =>
          rw [display, parse_applied (by decide)]
          simp only [FromStr.withArgs]
          rw [FromStr.dateTime64, twoArgs (IsArg.number precision) (IsArg.timezone h.2.2),
            Outcome.ok_bind]
          simp only [parseUsize, parseUnsigned_displayNat h.1, timezone_displayTz h.2,
            Outcome.ok_bind]
      | enum8 items =>
          rw [display, parse_applied (by decide)]
          simp only [FromStr.withArgs]
          rw [options_display parse_int8 (List.all_eq_true.mp h)]
          rfl
      | enum16 items =>
          rw [display, parse_applied (by decide)]
          simp only [FromStr.withArgs]
          rw [options_display parse_int16 (List.all_eq_true.mp h)]
          rfl
      | _ => exact (parse_name (bareName _) (by decide)).trans rfl
  | hnullable inner ih =>
      -- The inner name is shorter than the whole, so there is fuel for it.
      have hlen := length_applied "Nullable" inner.display
      rw [display] at hfuel ⊢
      obtain ⟨fuel, rfl⟩ : ∃ k, fuel = k + 1 := ⟨fuel - 1, by omega⟩
      rw [parse_applied (by decide)]
      simp only [FromStr.withArgs]
      rw [oneArg_arg (display_isArg (t := inner) h), Outcome.ok_bind, ih h fuel (by omega)]
      rfl
  | hlowCardinality inner _ ih =>
      have hlen := length_applied "LowCardinality" inner.display
      rw [display] at hfuel ⊢
      obtain ⟨fuel, rfl⟩ : ∃ k, fuel = k + 1 := ⟨fuel - 1, by omega⟩
      rw [parse_applied (by decide)]
      simp only [FromStr.withArgs]
      rw [oneArg_arg (display_isArg (t := inner) h), Outcome.ok_bind, ih h fuel (by omega)]
      rfl
  | harray inner ih =>
      have hlen := length_applied "Array" inner.display
      rw [display] at hfuel ⊢
      obtain ⟨fuel, rfl⟩ : ∃ k, fuel = k + 1 := ⟨fuel - 1, by omega⟩
      rw [parse_applied (by decide)]
      simp only [FromStr.withArgs]
      rw [oneArg_arg (display_isArg (t := inner) h), Outcome.ok_bind, ih h fuel (by omega)]
      rfl
  | htuple items ih =>
      have hitems := nameables_iff.mp h
      have hlen := length_applied "Tuple" ([','].intercalate (items.map display))
      rw [display_tuple] at hfuel ⊢
      rw [parse_applied (by decide)]
      simp only [FromStr.withArgs]
      have hargs : ∀ a ∈ items.map display, IsArg a := by
        intro a ha
        obtain ⟨t, ht, rfl⟩ := List.mem_map.mp ha
        exact display_isArg (hitems t ht)
      rw [parseVariableArgs_intercalate hargs, Outcome.ok_bind, Outcome.traverse_map]
      -- Each item is one of the names between the commas, and no longer than all of them.
      have hparse : Outcome.traverse (fun t => FromStr.parse lex fuel t.display) items =
          .ok (items.map id) := by
        refine Outcome.traverse_eq_ok_map fun t ht => ?_
        have hle := length_lt_intercalate (List.mem_map_of_mem (f := display) ht)
        obtain ⟨k, rfl⟩ : ∃ k, fuel = k + 1 := ⟨fuel - 1, by omega⟩
        exact ih t ht (hitems t ht) k (by omega)
      rw [hparse, List.map_id]
      rfl
  | hmap key value ihkey ihvalue =>
      have hlen := length_applied "Map" (key.display ++ ',' :: value.display)
      rw [List.length_append, List.length_cons] at hlen
      rw [display] at hfuel ⊢
      obtain ⟨fuel, rfl⟩ : ∃ k, fuel = k + 1 := ⟨fuel - 1, by omega⟩
      rw [parse_applied (by decide)]
      simp only [FromStr.withArgs]
      rw [twoArgs (display_isArg h.1) (display_isArg h.2), Outcome.ok_bind]
      simp only [ihkey h.1 fuel (by omega), ihvalue h.2 fuel (by omega), Outcome.ok_bind]

/-- **The parser takes back the name of every nameable type.** -/
theorem fromStr_display {t : ChType} (h : t.Nameable lex) : fromStr lex t.display = .ok t :=
  parse_display h (Nat.lt_succ_self _)

/-! ## Sizes -/

/-- The sizes of the fixed-size strings in the type. -/
def sizes : ChType → List Nat
  | .fixedSizedString n | .fixedSizedBinary n => [n]
  | .nullable inner | .lowCardinality inner | .array inner => inner.sizes
  | .tuple items => sizesOf items
  | .map key value => key.sizes ++ value.sizes
  | _ => []
where
  sizesOf : List ChType → List Nat
    | [] => []
    | t :: ts => t.sizes ++ sizesOf ts

theorem sizesOf_eq (items : List ChType) : sizes.sizesOf items = items.flatMap sizes := by
  induction items with
  | nil => rfl
  | cons t ts ih => rw [sizes.sizesOf, ih, List.flatMap_cons]

/-- The argument of a name with one argument is parsed where the name is. -/
theorem parse_argument {name : String} (hname : isName name = true) {make : ChType → ChType}
    {inner u : ChType} (h : inner.Quotable)
    (harm : ∀ parse following, ∃ complaint, FromStr.withArgs lex parse name following =
      (FromStr.oneArg complaint following >>= fun a => make <$> parse a)) {fuel : Nat}
    (hparse : FromStr.parse lex fuel (applied name inner.display) = .ok u) :
    ∃ fuel v, FromStr.parse lex fuel inner.display = .ok v := by
  cases fuel with
  | zero => cases hparse
  | succ fuel =>
      rw [parse_applied hname] at hparse
      obtain ⟨complaint, hargs⟩ := harm (FromStr.parse lex fuel) ('(' :: inner.display ++ [')'])
      rw [hargs, oneArg_arg h.isArg, Outcome.ok_bind] at hparse
      obtain ⟨v, hv, -⟩ := Outcome.map_eq_ok.mp hparse
      exact ⟨fuel, v, hv⟩

/-- **No name is parsed that has a fixed-size string of size zero.** -/
theorem sizes_pos_of_parse {t u : ChType} (h : t.Quotable) (hsizes : ∀ n ∈ t.sizes, n ≤ usizeMax)
    {fuel : Nat} (hparse : FromStr.parse lex fuel t.display = .ok u) : ∀ n ∈ t.sizes, 0 < n := by
  induction t using inductionOn generalizing fuel u with
  | hleaf t hflat =>
      cases t with
      | nullable | lowCardinality | array | tuple | map => cases hflat
      | fixedSizedString n | fixedSizedBinary n =>
          cases fuel with
          | zero => cases hparse
          | succ fuel =>
              have hn := hsizes n List.mem_cons_self
              rw [display, parse_applied (by decide)] at hparse
              simp only [FromStr.withArgs] at hparse
              rw [FromStr.fixedString, oneArg_arg (IsArg.number n), Outcome.ok_bind, parseUsize,
                parseUnsigned_displayNat hn] at hparse
              simp only [Outcome.ok_bind] at hparse
              split_ifs at hparse with hzero
              · cases hparse
              · simpa [sizes] using Nat.pos_of_ne_zero hzero
      | _ => exact fun n hn => absurd hn List.not_mem_nil
  | hnullable inner ih =>
      have hinner := @parse_argument lex "Nullable" (by decide) .nullable inner u h
        (fun _ _ => ⟨_, rfl⟩) fuel hparse
      obtain ⟨fuel, v, hv⟩ := hinner
      exact ih h hsizes hv
  | hlowCardinality inner _ ih =>
      have hinner := @parse_argument lex "LowCardinality" (by decide) .lowCardinality inner u h
        (fun _ _ => ⟨_, rfl⟩) fuel hparse
      obtain ⟨fuel, v, hv⟩ := hinner
      exact ih h hsizes hv
  | harray inner ih =>
      have hinner := @parse_argument lex "Array" (by decide) .array inner u h
        (fun _ _ => ⟨_, rfl⟩) fuel hparse
      obtain ⟨fuel, v, hv⟩ := hinner
      exact ih h hsizes hv
  | htuple items ih =>
      cases fuel with
      | zero => cases hparse
      | succ fuel =>
          have hitems := quotables_iff.mp h
          rw [display_tuple, parse_applied (by decide)] at hparse
          simp only [FromStr.withArgs] at hparse
          have hargs : ∀ a ∈ items.map display, IsArg a := by
            intro a ha
            obtain ⟨t, ht, rfl⟩ := List.mem_map.mp ha
            exact (hitems t ht).isArg
          rw [parseVariableArgs_intercalate hargs, Outcome.ok_bind] at hparse
          obtain ⟨us, hus, -⟩ := Outcome.map_eq_ok.mp hparse
          rw [Outcome.traverse_map] at hus
          rw [sizes, sizesOf_eq] at hsizes ⊢
          intro n hn
          -- The size is one of a component, whose name is parsed as well.
          obtain ⟨t, ht, hmem⟩ := List.mem_flatMap.mp hn
          obtain ⟨v, hv⟩ := Outcome.exists_of_traverse hus t ht
          exact ih t ht (hitems t ht) (fun m hm => hsizes m (List.mem_flatMap.mpr ⟨t, ht, hm⟩)) hv n
            hmem
  | hmap key value ihkey ihvalue =>
      cases fuel with
      | zero => cases hparse
      | succ fuel =>
          rw [display, parse_applied (by decide)] at hparse
          simp only [FromStr.withArgs] at hparse
          rw [twoArgs h.1.isArg h.2.isArg] at hparse
          simp only [Outcome.ok_bind] at hparse
          obtain ⟨k, hk, hparse⟩ := Outcome.bind_eq_ok.mp hparse
          obtain ⟨v, hv, -⟩ := Outcome.bind_eq_ok.mp hparse
          intro n hn
          rcases List.mem_append.mp hn with hn | hn
          · exact ihkey h.1 (fun m hm => hsizes m (List.mem_append_left _ hm)) hk n hn
          · exact ihvalue h.2 (fun m hm => hsizes m (List.mem_append_right _ hm)) hv n hn

/-! ## Aliases -/

/-- The type that shares its name with the type: `Binary` is printed as `String`, and a
fixed-size binary as a fixed-size string. -/
def unaliased : ChType → ChType
  | .binary => .string
  | .fixedSizedBinary n => .fixedSizedString n
  | .nullable inner => .nullable inner.unaliased
  | .lowCardinality inner => .lowCardinality inner.unaliased
  | .array inner => .array inner.unaliased
  | .tuple items => .tuple (unaliaseds items)
  | .map key value => .map key.unaliased value.unaliased
  | t => t
where
  unaliaseds : List ChType → List ChType
    | [] => []
    | t :: ts => t.unaliased :: unaliaseds ts

/-- The parameters of the type are in range: scales and sizes as the parser checks them,
zones that the zone table knows by their names, labels without quotes and backslashes. -/
def ParametersInRange (lex : Lexicon) : ChType → Prop
  | .decimal32 s => 0 < s ∧ s ≤ 9
  | .decimal64 s => 0 < s ∧ s ≤ 18
  | .decimal128 s => 0 < s ∧ s ≤ 38
  | .decimal256 s => 0 < s ∧ s ≤ 76
  | .fixedSizedString n | .fixedSizedBinary n => 0 < n ∧ n ≤ usizeMax
  | .dateTime tz => NameableTz lex tz
  | .dateTime64 precision tz => precision ≤ usizeMax ∧ NameableTz lex tz
  | .enum8 items => items.all (fun e => plainLabel e.1) = true
  | .enum16 items => items.all (fun e => plainLabel e.1) = true
  | .nullable inner | .lowCardinality inner | .array inner => inner.ParametersInRange lex
  | .tuple items => inRanges lex items
  | .map key value => key.ParametersInRange lex ∧ value.ParametersInRange lex
  | _ => True
where
  inRanges (lex : Lexicon) : List ChType → Prop
    | [] => True
    | t :: ts => t.ParametersInRange lex ∧ inRanges lex ts

theorem unaliaseds_eq_map (items : List ChType) :
    unaliased.unaliaseds items = items.map unaliased := by
  induction items with
  | nil => rfl
  | cons t ts ih => rw [unaliased.unaliaseds, ih, List.map_cons]

theorem inRanges_iff {items : List ChType} :
    ParametersInRange.inRanges lex items ↔ ∀ t ∈ items, t.ParametersInRange lex := by
  induction items with
  | nil => simp [ParametersInRange.inRanges]
  | cons t ts ih => simp [ParametersInRange.inRanges, ih]

/-- Aliases have one name. -/
theorem display_unaliased (t : ChType) : t.unaliased.display = t.display := by
  induction t using inductionOn with
  | hleaf t hflat =>
      cases t with
      | nullable | lowCardinality | array | tuple | map => cases hflat
      | _ => rfl
  | hnullable inner ih => rw [unaliased, display, display, ih]
  | hlowCardinality inner _ ih => rw [unaliased, display, display, ih]
  | harray inner ih => rw [unaliased, display, display, ih]
  | htuple items ih =>
      have hitems : (items.map unaliased).map display = items.map display := by
        rw [List.map_map]
        exact List.map_congr_left fun t ht => ih t ht
      rw [unaliased, unaliaseds_eq_map, display_tuple, display_tuple, hitems]
  | hmap key value ihkey ihvalue => rw [unaliased, display, display, ihkey, ihvalue]

theorem nameable_unaliased {t : ChType} (h : t.ParametersInRange lex) :
    t.unaliased.Nameable lex := by
  induction t using inductionOn with
  | hleaf t hflat =>
      cases t with
      | nullable | lowCardinality | array | tuple | map => cases hflat
      | _ => exact h
  | hnullable inner ih => exact ih h
  | hlowCardinality inner _ ih => exact ih h
  | harray inner ih => exact ih h
  | htuple items ih =>
      rw [unaliased, unaliaseds_eq_map]
      refine nameables_iff.mpr fun u hu => ?_
      obtain ⟨t, ht, rfl⟩ := List.mem_map.mp hu
      exact ih t ht (inRanges_iff.mp h t ht)
  | hmap key value ihkey ihvalue => exact ⟨ihkey h.1, ihvalue h.2⟩

/-- **Round trip of a type name.**  The printed name of a type with parameters in range is
parsed, up to aliases, as the type. -/
theorem fromStr_display_unaliased {t : ChType} (h : t.ParametersInRange lex) :
    fromStr lex t.display = .ok t.unaliased := by
  rw [← display_unaliased]
  exact fromStr_display (nameable_unaliased h)

/-- Labels with the characters that the scanner counts, and an alias. -/
theorem fromStr_display_sample :
    fromStr .ascii (display (.map .binary (.array (.enum8 [("a, (b = 1", -1), ("", 2)])))) =
      .ok (.map .string (.array (.enum8 [("a, (b = 1", -1), ("", 2)]))) := by
  have hlabels : [("a, (b = 1", (-1 : Int8)), ("", 2)].all (fun e => plainLabel e.1) = true := by
    decide
  exact fromStr_display_unaliased (t := .map .binary (.array (.enum8 _))) ⟨trivial, hlabels⟩

end ChType

end ClickhouseArrow
