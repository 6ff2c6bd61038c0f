import ClickhouseArrow.Native.NameArguments

/-!
# Arguments joined by commas

What the splitter makes of arguments that are joined again.  Inside a quoted section a backslash
escapes the character behind it; the splitter takes a quote for escaped whenever a backslash
stands right before it, so that it misses the end of a section that ends in an escaped
backslash.  Which lists come back as they were is told by reading each argument with that rule.
-/

namespace ClickhouseArrow

open Wire

/-! ## The text of an argument -/

/-- The rest of a quoted section, its closing quote included. -/
inductive Quoted : List Char → Prop
  | close : Quoted ['\'']
  | escaped (c : Char) {s : List Char} (h : Quoted s) : Quoted ('\\' :: c :: s)
  | char {c : Char} {s : List Char} (hquote : c ≠ '\'') (hbackslash : c ≠ '\\') (h : Quoted s) :
      Quoted (c :: s)

theorem Quoted.ne_nil {s : List Char} (h : Quoted s) : s ≠ [] := by
  cases h <;> simp

/-- Text behind `n` open parentheses that closes them all; its quoted sections satisfy `Sect`,
and a comma outside quotes stands where `comma` allows it. -/
inductive Text (Sect : List Char → Prop) (comma : Nat → Prop) : Nat → List Char → Prop
  | nil : Text Sect comma 0 []
  | opened {n : Nat} {s : List Char} (h : Text Sect comma (n + 1) s) :
      Text Sect comma n ('(' :: s)
  | closed {n : Nat} {s : List Char} (h : Text Sect comma n s) :
      Text Sect comma (n + 1) (')' :: s)
  | quoted {n : Nat} {q s : List Char} (hq : Sect q) (h : Text Sect comma n s) :
      Text Sect comma n ('\'' :: (q ++ s))
  | comma {n : Nat} {s : List Char} (hcomma : comma n) (h : Text Sect comma n s) :
      Text Sect comma n (',' :: s)
  | char {n : Nat} {c : Char} {s : List Char} (hc : isPlainChar c = true)
      (h : Text Sect comma n s) : Text Sect comma n (c :: s)

/-- A trimmed argument, its parentheses outside quotes balanced and its quoted sections
escaped. -/
structure IsArgument (a : List Char) : Prop where
  trimmed : trim a = a
  ne_nil : a ≠ []
  text : Text Quoted (fun _ => True) 0 a

/-- The arguments joined by a comma and a space, in parentheses. -/
def joined (args : List (List Char)) : List Char :=
  '(' :: [',', ' '].intercalate args ++ [')']

/-- The splitter yields the arguments that were joined. -/
def ComesApart (args : List (List Char)) : Prop :=
  parseArgsIter (joined args) = .ok (args.map .ok)

namespace ArgsIterator

/-- An argument read with the rule that a quote closes a section unless a backslash stands
right before it: the open parentheses at its end, and whether a section is open there.  There
is no result where a parenthesis closes that nothing opened, or a comma stands outside quotes
and parentheses. -/
def reading (inParens : Nat) (inQuotes escaped : Bool) : List Char → Option (Nat × Bool)
  | [] => some (inParens, inQuotes)
  | c :: cs =>
      if inQuotes then
        if c = '\\' then reading inParens true true cs
        else reading inParens (!(c = '\'' && !escaped)) false cs
      else if c = '\'' then reading inParens true false cs
      else if c = '(' then reading (inParens + 1) false false cs
      else if c = ')' then if inParens = 0 then none else reading (inParens - 1) false false cs
      else if c = ',' ∧ inParens = 0 then none
      else reading inParens false false cs

end ArgsIterator

open ArgsIterator

/-- Read with the rule of the splitter, every argument but the last is balanced, its sections
are closed and it has no comma outside quotes and parentheses; so is and has the last one, but
its last section may stay open, and it does not end in a comma. -/
def KeptApart (args : List (List Char)) : Prop :=
  (∀ a ∈ args.dropLast, reading 0 false false a = some (0, false)) ∧
    ∀ a ∈ args.getLast?,
      (∃ inQuotes, reading 0 false false a = some (0, inQuotes)) ∧ a.getLast? ≠ some ','

/-! ## White space around an argument -/

theorem trim_append_of_isWhitespace {slice : List Char}
    (hslice : ∀ c ∈ slice, isWhitespace c = true) (s : List Char) :
    trim (slice ++ s) = trim s := by
  rw [trim, List.dropWhile_append, List.dropWhile_eq_nil_iff.mpr (by simpa using hslice)]
  rfl

theorem dropWhile_of_trim {s : List Char} (h : trim s = s) : s.dropWhile isWhitespace = s := by
  have hle := (List.rdropWhile_prefix isWhitespace (s.dropWhile isWhitespace)).length_le
  rw [← trim, h] at hle
  exact (List.dropWhile_suffix isWhitespace).eq_of_length_le hle

theorem rdropWhile_of_trim {s : List Char} (h : trim s = s) : s.rdropWhile isWhitespace = s := by
  rw [trim, dropWhile_of_trim h] at h
  exact h

/-- What follows a trimmed text is trimmed at its own end only, up to a character that is no
white space. -/
theorem length_lt_trim {s t : List Char} {c : Char} (hs : trim s = s) (hne : s ≠ [])
    (hc : isWhitespace c = false) : s.length < (trim (s ++ c :: t)).length := by
  have hleft : (s ++ c :: t).dropWhile isWhitespace = s ++ c :: t := by
    rw [List.dropWhile_append, dropWhile_of_trim hs, if_neg (by simpa using hne)]
  have hmem : s ++ [c] <+: trim (s ++ c :: t) := by
    rw [trim, hleft]
    have hsplit : s ++ c :: t = s ++ [c] ++ t := by simp
    rw [hsplit, List.rdropWhile, List.reverse_append, List.dropWhile_append]
    split
    · have hlast : (s ++ [c]).reverse.dropWhile isWhitespace = (s ++ [c]).reverse := by
        rw [List.reverse_append, List.reverse_singleton, List.singleton_append,
          List.dropWhile_cons_of_neg (by simp [hc])]
      exact ⟨[], by rw [List.append_nil, hlast, List.reverse_reverse]⟩
    · rw [List.reverse_append, List.reverse_reverse]
      exact List.prefix_append _ _
  have hle := hmem.length_le
  rw [List.length_append, List.length_singleton] at hle
  omega

/-- Text between two trimmed texts is kept. -/
theorem trim_append_append {s t : List Char} (u : List Char) (hs : trim s = s ∧ s ≠ [])
    (ht : trim t = t ∧ t ≠ []) : trim (s ++ u ++ t) = s ++ u ++ t ∧ s ++ u ++ t ≠ [] := by
  have hleft : (s ++ (u ++ t)).dropWhile isWhitespace = s ++ (u ++ t) := by
    rw [List.dropWhile_append, dropWhile_of_trim hs.1, if_neg (by simpa using hs.2)]
  have hright : (t.reverse ++ (s ++ u).reverse).dropWhile isWhitespace =
      t.reverse ++ (s ++ u).reverse := by
    have hlast : t.reverse.dropWhile isWhitespace = t.reverse := by
      have h := congrArg List.reverse (rdropWhile_of_trim ht.1)
      rwa [List.rdropWhile, List.reverse_reverse] at h
    rw [List.dropWhile_append, hlast, if_neg (by simpa using ht.2)]
  refine ⟨?_, by simp [hs.2]⟩
  rw [List.append_assoc, trim, hleft, ← List.append_assoc, List.rdropWhile, List.reverse_append,
    hright, ← List.reverse_append, List.reverse_reverse]

theorem intercalate_cons_cons (a b : List Char) (args : List (List Char)) :
    [',', ' '].intercalate (a :: b :: args) =
      a ++ [',', ' '] ++ [',', ' '].intercalate (b :: args) := by
  rw [List.intercalate_cons_cons, List.append_assoc]

theorem trim_joined {args : List (List Char)} (hne : args ≠ [])
    (hargs : ∀ a ∈ args, trim a = a ∧ a ≠ []) :
    trim ([',', ' '].intercalate args) = [',', ' '].intercalate args ∧
      [',', ' '].intercalate args ≠ [] := by
  induction args with
  | nil => exact absurd rfl hne
  | cons a args ih =>
      cases args with
      | nil => simpa using hargs a List.mem_cons_self
      | cons b args =>
          have htail := ih (by simp) fun c hc => hargs c (List.mem_cons_of_mem a hc)
          rw [intercalate_cons_cons]
          exact trim_append_append _ (hargs a List.mem_cons_self) htail

theorem getLast?_intercalate {args : List (List Char)} (hargs : ∀ a ∈ args, trim a = a ∧ a ≠ []) :
    ([',', ' '].intercalate args).getLast? = args.getLast?.bind List.getLast? := by
  induction args with
  | nil => rfl
  | cons a args ih =>
      cases args with
      | nil => simp
      | cons b args =>
          have htail := fun c hc => hargs c (List.mem_cons_of_mem a hc)
          rw [intercalate_cons_cons, List.getLast?_append_of_ne_nil _ (trim_joined (by simp) htail).2,
            ih htail, List.getLast?_cons_cons]

/-! ## What the splitter yields first -/

namespace ArgsIterator

/-- Outside quotes nothing is escaped. -/
theorem items_unescaped (inParens : Nat) (escaped : Bool) (slice input : List Char) :
    items inParens false escaped slice input = items inParens false false slice input := by
  cases input <;> rfl

/-- The splitter passes over a text as it is read. -/
theorem items_append {inParens inParens' : Nat} {inQuotes escaped : Bool} {s : List Char}
    (h : reading inParens inQuotes escaped s = some (inParens', false)) (slice rest : List Char) :
    items inParens inQuotes escaped slice (s ++ rest) =
      items inParens' false false (slice ++ s) rest := by
  induction s generalizing inParens inQuotes escaped slice with
  | nil =>
      obtain ⟨rfl, rfl⟩ : inParens = inParens' ∧ inQuotes = false := by simpa [reading] using h
      rw [List.append_nil, List.nil_append, items_unescaped]
  | cons c s ih =>
      have hpush : slice ++ c :: s = slice ++ [c] ++ s := by simp
      rw [reading] at h
      rw [List.cons_append, items, hpush]
      split_ifs at h ⊢
      all_goals exact ih h (slice ++ [c])

/-- The end of a text that is read to the end. -/
theorem items_end {inParens : Nat} {inQuotes inQuotes' escaped : Bool} {s : List Char}
    (h : reading inParens inQuotes escaped s = some (0, inQuotes')) {slice : List Char}
    (hne : trim (slice ++ s) ≠ []) (hcomma : trim (slice ++ s) ≠ [',']) :
    items inParens inQuotes escaped slice s = [.ok (trim (slice ++ s))] := by
  induction s generalizing inParens inQuotes escaped slice with
  | nil =>
      obtain ⟨rfl, -⟩ : inParens = 0 ∧ inQuotes = inQuotes' := by simpa [reading] using h
      rw [List.append_nil] at hne hcomma ⊢
      rw [items, if_neg (by simp), if_neg (by simpa using hne), if_neg hcomma]
  | cons c s ih =>
      have hpush : slice ++ c :: s = slice ++ [c] ++ s := by simp
      rw [reading] at h
      rw [hpush] at hne hcomma ⊢
      rw [items]
      split_ifs at h ⊢
      all_goals exact ih h hne hcomma

/-- The first argument that the splitter yields ends at a comma that is read outside quotes
and parentheses, or at the end. -/
theorem items_eq_ok_cons {inParens : Nat} {inQuotes escaped : Bool} {slice input x : List Char}
    {xs : List (Result (List Char))}
    (h : items inParens inQuotes escaped slice input = .ok x :: xs) :
    (∃ p rest, input = p ++ ',' :: rest ∧ reading inParens inQuotes escaped p = some (0, false) ∧
        x = trim (slice ++ p) ∧ xs = items 0 false false [] rest) ∨
      ((∃ inQuotes', reading inParens inQuotes escaped input = some (0, inQuotes')) ∧
        x = trim (slice ++ input) ∧ xs = []) := by
  induction input generalizing inParens inQuotes escaped slice with
  | nil =>
      rw [items] at h
      split_ifs at h with hparens hempty hcomma
      · simp [typeError, Outcome.fail] at h
      · simp [typeError, Outcome.fail] at h
      · obtain ⟨hx, rfl⟩ := List.cons.inj h
        have hparens : inParens = 0 := by simpa using hparens
        refine Or.inr ⟨⟨inQuotes, by rw [reading, hparens]⟩, ?_, rfl⟩
        rw [List.append_nil]
        exact (Except.ok.inj hx).symm
  | cons c input ih =>
      -- A character that is kept moves from the input to the slice, and the reading goes on behind
      -- it.
      have hpush {inParens' : Nat} {inQuotes' escaped' : Bool}
          (hread : ∀ s, reading inParens inQuotes escaped (c :: s) =
            reading inParens' inQuotes' escaped' s)
          (h : items inParens' inQuotes' escaped' (slice ++ [c]) input = .ok x :: xs) :
          (∃ p rest, c :: input = p ++ ',' :: rest ∧
              reading inParens inQuotes escaped p = some (0, false) ∧
              x = trim (slice ++ p) ∧ xs = items 0 false false [] rest) ∨
            ((∃ inQuotes', reading inParens inQuotes escaped (c :: input) = some (0, inQuotes')) ∧
              x = trim (slice ++ c :: input) ∧ xs = []) := by
        rcases ih h with ⟨p, rest, rfl, hp, hx, hxs⟩ | ⟨hread', hx, hxs⟩
        · refine Or.inl ⟨c :: p, rest, rfl, (hread p).trans hp, ?_, hxs⟩
          simpa using hx
        · refine Or.inr ⟨?_, by simpa using hx, hxs⟩
          rw [hread input]
          exact hread'
      rw [items] at h
      split_ifs at h with h1 h2 h3 h4 h5 h6 h7 h8
      · exact hpush (fun s => by rw [reading, if_pos h1, if_pos h2]) h
      · exact hpush (fun s => by rw [reading, if_pos h1, if_neg h2]) h
      · exact hpush (fun s => by rw [reading, if_neg h1, if_pos h3]) h
      · exact hpush (fun s => by rw [reading, if_neg h1, if_neg h3, if_pos h4]) h
      · simp [Outcome.panic] at h
      · exact hpush (fun s => by
          rw [reading, if_neg h1, if_neg h3, if_neg h4, if_pos h5, if_neg h6]) h
      · simp [typeError, Outcome.fail] at h
      -- A comma outside of everything: the argument ends here.
      · obtain ⟨hx, hxs⟩ := List.cons.inj h
        refine Or.inl ⟨[], input, ?_, ?_, ?_, hxs.symm⟩
        · rw [h7.1]
          rfl
        · rw [reading, h7.2, Bool.eq_false_iff.mpr h1]
        · rw [List.append_nil]
          exact (Except.ok.inj hx).symm
      · exact hpush (fun s => by
          rw [reading, if_neg h1, if_neg h3, if_neg h4, if_neg h5, if_neg h7]) h

/-- An argument in front of others comes out first if and only if it is read to its end
without its sections staying open. -/
theorem items_argument_iff {slice a : List Char} (hslice : ∀ c ∈ slice, isWhitespace c = true)
    (ha : trim a = a ∧ a ≠ []) (rest : List Char) (xs : List (Result (List Char))) :
    items 0 false false slice (a ++ [',', ' '] ++ rest) = .ok a :: xs ↔
      reading 0 false false a = some (0, false) ∧ items 0 false false [' '] rest = xs := by
  have htrim : trim (slice ++ a) = a := by rw [trim_append_of_isWhitespace hslice, ha.1]
  have hsplit : a ++ [',', ' '] ++ rest = a ++ ',' :: ' ' :: rest := by simp
  have hspace : items 0 false false [] (' ' :: rest) = items 0 false false [' '] rest := rfl
  rw [hsplit]
  constructor
  · intro h
    rcases items_eq_ok_cons h with ⟨p, rest', hinput, hread, hx, hxs⟩ | ⟨-, hx, -⟩
    · rw [trim_append_of_isWhitespace hslice] at hx
      have hpa : p = a := by
        rcases List.append_eq_append_iff.mp hinput with ⟨t, hp, ht⟩ | ⟨t, hp, ht⟩
        · cases t with
          | nil => simpa using hp
          | cons d t =>
              -- More than the argument cannot be trimmed to it.
              obtain rfl : ',' = d := (List.cons.inj ht).1
              have hlt := length_lt_trim (t := t) ha.1 ha.2 (show isWhitespace ',' = false by decide)
              rw [← hp, ← hx] at hlt
              omega
        · cases t with
          | nil => simpa using hp.symm
          | cons d t =>
              have hle := length_trim_le p
              rw [← hx, hp, List.length_append, List.length_cons] at hle
              omega
      subst hpa
      obtain ⟨-, hrest⟩ := List.cons.inj (List.append_cancel_left hinput)
      refine ⟨hread, ?_⟩
      rw [hxs, ← hrest, hspace]
    · have hlt := length_lt_trim (t := ' ' :: rest) ha.1 ha.2
        (show isWhitespace ',' = false by decide)
      rw [trim_append_of_isWhitespace hslice] at hx
      rw [← hx] at hlt
      omega
  · rintro ⟨hread, rfl⟩
    rw [items_append hread, items]
    simp only [Bool.false_eq_true, if_false, Char.reduceEq, and_self, if_true, htrim]
    rw [if_neg (by simpa using ha.2), hspace]

theorem items_last_iff {slice a : List Char} (hslice : ∀ c ∈ slice, isWhitespace c = true)
    (ha : trim a = a ∧ a ≠ []) :
    items 0 false false slice a = [.ok a] ↔
      ∃ inQuotes, reading 0 false false a = some (0, inQuotes) := by
  have htrim : trim (slice ++ a) = a := by rw [trim_append_of_isWhitespace hslice, ha.1]
  constructor
  · intro h
    rcases items_eq_ok_cons h with ⟨p, rest, hinput, -, hx, -⟩ | ⟨hread, -, -⟩
    · have hle := length_trim_le p
      have hlen := congrArg List.length hinput
      rw [trim_append_of_isWhitespace hslice] at hx
      rw [← hx] at hle
      simp only [List.length_append, List.length_cons] at hlen
      omega
    · exact hread
  · rintro ⟨inQuotes, hread⟩
    have hcomma : a ≠ [','] := by
      rintro rfl
      cases hread
    rw [items_end hread (by rw [htrim]; exact ha.2) (by rw [htrim]; exact hcomma), htrim]

theorem items_joined_iff {args : List (List Char)} (hne : args ≠ [])
    (hargs : ∀ a ∈ args, trim a = a ∧ a ≠ []) {slice : List Char}
    (hslice : ∀ c ∈ slice, isWhitespace c = true) :
    items 0 false false slice ([',', ' '].intercalate args) = args.map .ok ↔
      (∀ a ∈ args.dropLast, reading 0 false false a = some (0, false)) ∧
        ∀ a ∈ args.getLast?, ∃ inQuotes, reading 0 false false a = some (0, inQuotes) := by
  induction args generalizing slice with
  | nil => exact absurd rfl hne
  | cons a args ih =>
      have ha := hargs a List.mem_cons_self
      cases args with
      | nil => simpa using items_last_iff hslice ha
      | cons b args =>
          have htail := ih (by simp) (fun c hc => hargs c (List.mem_cons_of_mem a hc))
            (show ∀ c ∈ [' '], isWhitespace c = true from fun c hc => by
              rw [List.mem_singleton.mp hc]
              rfl)
          rw [intercalate_cons_cons, List.map_cons, items_argument_iff hslice ha, htail,
            List.dropLast_cons_cons, List.getLast?_cons_cons, List.forall_mem_cons, and_assoc]

end ArgsIterator

/-- **Joined arguments come apart again if and only if the rule of the splitter keeps them
apart.** -/
theorem comesApart_iff_keptApart {args : List (List Char)} (hne : args ≠ [])
    (hargs : ∀ a ∈ args, IsArgument a) : ComesApart args ↔ KeptApart args := by
  have htrimmed := fun a ha => And.intro (hargs a ha).trimmed (hargs a ha).ne_nil
  have hiter : parseArgsIter (joined args) =
      if args.getLast?.bind List.getLast? = some ',' then
        typeError [.text "Trailing comma in argument list"]
      else .ok (items 0 false false [] ([',', ' '].intercalate args)) := by
    rw [parseArgsIter, joined, stripParens_body _ (trim_joined hne htrimmed).1, Outcome.ok_bind,
      getLast?_intercalate htrimmed]
  have hitems := items_joined_iff hne htrimmed
    (show ∀ c ∈ [], isWhitespace c = true from fun c hc => absurd hc List.not_mem_nil)
  obtain ⟨a, ha⟩ : ∃ a, args.getLast? = some a :=
    Option.isSome_iff_exists.mp (by simpa using hne)
  rw [ComesApart, KeptApart, hiter, ha]
  simp only [ha, Option.bind_some, Option.mem_def, Option.some.injEq, forall_eq'] at hitems ⊢
  by_cases hcomma : a.getLast? = some ','
  · simp [hcomma, typeError, Outcome.fail]
  · rw [if_neg hcomma, Except.ok.injEq, hitems]
    simp [hcomma]

/-! ## Sections that do not end in a backslash -/

/-- A quoted section with another character than a backslash before its closing quote. -/
def PlainEnd (q : List Char) : Prop := Quoted q ∧ q.dropLast.getLast? ≠ some '\\'

/-- Text whose sections do not end in a backslash, with commas inside parentheses only. -/
abbrev PlainText : Nat → List Char → Prop := Text PlainEnd fun n => n ≠ 0

namespace ArgsIterator

theorem reading_quoted {q : List Char} (hq : Quoted q)
    (hend : q.dropLast.getLast? ≠ some '\\') (inParens : Nat) {escaped : Bool}
    (hopen : q = ['\''] → escaped = false) (s : List Char) :
    reading inParens true escaped (q ++ s) = reading inParens false false s := by
  induction hq generalizing escaped with
  | close => simp [reading, hopen rfl]
  | @escaped c q h ih =>
      have hne := h.ne_nil
      have htail : q.dropLast.getLast? ≠ some '\\' := by
        intro hlast
        apply hend
        rw [List.dropLast_cons_of_ne_nil (by simp), List.dropLast_cons_of_ne_nil hne,
          List.getLast?_cons, List.getLast?_cons, hlast]
        rfl
      rw [List.cons_append, List.cons_append, reading, if_pos rfl, if_pos rfl, reading, if_pos rfl]
      split_ifs with hc
      · refine ih htail fun hq => absurd ?_ hend
        rw [hq, hc]
        rfl
      · simpa using ih htail (fun _ => rfl)
  | @char c q hquote hbackslash h ih =>
      have hne := h.ne_nil
      have htail : q.dropLast.getLast? ≠ some '\\' := by
        intro hlast
        apply hend
        rw [List.dropLast_cons_of_ne_nil hne, List.getLast?_cons, hlast]
        rfl
      rw [List.cons_append, reading, if_pos rfl, if_neg hbackslash]
      simpa [hquote] using ih htail (fun _ => rfl)

/-- Text whose sections do not end in a backslash is read as it is. -/
theorem reading_plainText {n : Nat} {s : List Char} (h : PlainText n s) :
    reading n false false s = some (0, false) := by
  induction h with
  | nil => rfl
  | opened h ih => simpa [reading] using ih
  | closed h ih => simpa [reading] using ih
  | @quoted n q s hq h ih =>
      rw [reading, if_neg (by simp), if_pos rfl, reading_quoted hq.1 hq.2 n (fun _ => rfl), ih]
  | comma hcomma h ih => simpa [reading, hcomma] using ih
  | @char n c s hc h ih =>
      have hplain : c ≠ '\'' ∧ c ≠ '(' ∧ c ≠ ')' ∧ c ≠ ',' := by
        simpa [isPlainChar, and_assoc] using hc
      simpa [reading, hplain.1, hplain.2.1, hplain.2.2.1, hplain.2.2.2] using ih

end ArgsIterator

/-! The end of a plain text is no comma. -/

theorem getLast?_cons_ne {c d : Char} {s : List Char} (hcd : c ≠ d) (hs : s.getLast? ≠ some d) :
    (c :: s).getLast? ≠ some d := by
  rw [List.getLast?_cons]
  cases hlast : s.getLast? with
  | none => simpa using hcd
  | some e => simpa [hlast] using hs

theorem Quoted.getLast?_eq {q : List Char} (h : Quoted q) : q.getLast? = some '\'' := by
  induction h with
  | close => rfl
  | escaped c h ih => rw [List.getLast?_cons, List.getLast?_cons, ih]; rfl
  | char hquote hbackslash h ih => rw [List.getLast?_cons, ih]; rfl

theorem PlainText.getLast?_ne {n : Nat} {s : List Char} (h : PlainText n s) :
    s.getLast? ≠ some ',' := by
  induction h with
  | nil => simp
  | opened h ih => exact getLast?_cons_ne (by decide) ih
  | closed h ih => exact getLast?_cons_ne (by decide) ih
  | @quoted n q s hq h ih =>
      refine getLast?_cons_ne (by decide) ?_
      rw [List.getLast?_append, hq.1.getLast?_eq]
      cases hlast : s.getLast? with
      | none => decide
      | some e => simpa [hlast] using ih
  | @comma n s hcomma h ih =>
      -- A parenthesis is open, so that the comma is not the end.
      have hne : s ≠ [] := by
        rintro rfl
        cases h
        exact hcomma rfl
      rw [List.getLast?_cons_of_ne_nil hne]
      exact ih
  | char hc h ih =>
      refine getLast?_cons_ne ?_ ih
      rintro rfl
      cases hc

/-- Arguments without a section that ends in a backslash come apart again. -/
theorem keptApart_of_plainText {args : List (List Char)} (h : ∀ a ∈ args, PlainText 0 a) :
    KeptApart args := by
  constructor
  · intro a ha
    exact reading_plainText (h a ((List.dropLast_sublist args).subset ha))
  · intro a ha
    have hplain := h a (List.mem_of_getLast? ha)
    exact ⟨⟨false, reading_plainText hplain⟩, hplain.getLast?_ne⟩

theorem comesApart_iff_keptApart_sample :
    ComesApart ["Int8".toList, "'x'".toList] ↔ KeptApart ["Int8".toList, "'x'".toList] := by
  refine comesApart_iff_keptApart (by simp) fun a ha => ?_
  simp only [List.mem_cons, List.not_mem_nil, or_false] at ha
  rcases ha with rfl | rfl
  · exact ⟨by decide, by decide, .char (by decide) (.char (by decide) (.char (by decide)
      (.char (by decide) .nil)))⟩
  · exact ⟨by decide, by decide,
      .quoted (q := ['x', '\'']) (.char (by decide) (by decide) .close) .nil⟩

/-- A section that ends in an escaped backslash, and an argument behind it. -/
theorem not_comesApart_sample :
    ¬ ∀ args : List (List Char), args ≠ [] → (∀ a ∈ args, IsArgument a) → ComesApart args := by
  intro h
  have happart := h [['\'', 'a', '\\', '\\', '\''], ['\'', 'b', '\'']] (by simp) fun a ha => ?_
  · have hparse : parseArgsIter (joined [['\'', 'a', '\\', '\\', '\''], ['\'', 'b', '\'']]) =
        .ok [.ok ['\'', 'a', '\\', '\\', '\'', ',', ' ', '\'', 'b', '\'']] := rfl
    rw [ComesApart, hparse] at happart
    simpa using congrArg List.length (Except.ok.inj happart)
  · simp only [List.mem_cons, List.not_mem_nil, or_false] at ha
    rcases ha with rfl | rfl
    · exact ⟨by decide, by decide, .quoted (q := ['a', '\\', '\\', '\''])
        (.char (by decide) (by decide) (.escaped '\\' .close)) .nil⟩
    · exact ⟨by decide, by decide, .quoted (q := ['b', '\''])
        (.char (by decide) (by decide) .close) .nil⟩

end ClickhouseArrow
