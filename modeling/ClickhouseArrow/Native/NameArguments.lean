import ClickhouseArrow.Native.NameRoundTrip

/-!
# Arguments of a name, and parentheses that nothing opened

The splitter of arguments counts the parentheses that are open.  Its items are arguments and
after them nothing, an error, or the panic at a closing parenthesis that nothing opened.  Which
of the three it is, and how many arguments stand before, is told from the text alone; the parsers
of a fixed number of arguments and of any number end accordingly.
-/

namespace ClickhouseArrow

open Wire

/-! ## Stray parentheses -/

namespace ArgsIterator

/-- The number of arguments before a closing parenthesis that nothing opened, where the
splitter meets one; `blank` tells whether the argument has been white space so far.  An
argument that is left empty ends the scan. -/
def strayParen (inParens : Nat) (inQuotes escaped blank : Bool) : List Char → Option Nat
  | [] => none
  | c :: cs =>
      if inQuotes then
        if c = '\\' then strayParen inParens true true (blank && isWhitespace c) cs
        else strayParen inParens (!(c = '\'' && !escaped)) false (blank && isWhitespace c) cs
      else if c = '\'' then strayParen inParens true false (blank && isWhitespace c) cs
      else if c = '(' then strayParen (inParens + 1) false false (blank && isWhitespace c) cs
      else if c = ')' then
        if inParens = 0 then some 0
        else strayParen (inParens - 1) false false (blank && isWhitespace c) cs
      else if c = ',' ∧ inParens = 0 then
        if blank then none else (strayParen 0 false false true cs).map (· + 1)
      else strayParen inParens false false (blank && isWhitespace c) cs

theorem trim_isEmpty (s : List Char) : (trim s).isEmpty = s.all isWhitespace := by
  rw [Bool.eq_iff_iff, List.isEmpty_iff, List.all_eq_true, trim, List.rdropWhile_eq_nil_iff]
  constructor
  · intro h c hc
    by_contra hspace
    have hne : s.dropWhile isWhitespace ≠ [] := by
      rw [Ne, List.dropWhile_eq_nil_iff]
      exact fun hall => hspace (hall c hc)
    have hhead := List.head_dropWhile_not isWhitespace hne
    rw [h _ (List.head_mem hne)] at hhead
    cases hhead
  · intro h
    have hnil : s.dropWhile isWhitespace = [] := List.dropWhile_eq_nil_iff.mpr h
    simp [hnil]

theorem trim_push_isEmpty (slice : List Char) (c : Char) :
    (trim (slice ++ [c])).isEmpty = ((trim slice).isEmpty && isWhitespace c) := by
  simp [trim_isEmpty]

/-- The items of a list of arguments are arguments, and after them nothing, an error, or
the panic at a stray parenthesis. -/
inductive Shape (items : List (Result (List Char))) : Option Nat → Prop
  | complete (args : List (List Char)) (h : items = args.map .ok) : Shape items none
  | refused (args : List (List Char)) (msg : List Fragment)
      (h : items = args.map .ok ++ [typeError msg]) : Shape items none
  | stray (args : List (List Char))
      (h : items = args.map .ok ++ [.panic .subtractOverflow]) : Shape items (some args.length)

theorem Shape.cons {items : List (Result (List Char))} {k : Option Nat} (h : Shape items k)
    (a : List Char) : Shape (.ok a :: items) (k.map (· + 1)) := by
  cases h with
  | complete args h => exact .complete (a :: args) (by rw [h]; rfl)
  | refused args msg h => exact .refused (a :: args) msg (by rw [h]; rfl)
  | stray args h => exact .stray (a :: args) (by rw [h]; rfl)

theorem items_shape (inParens : Nat) (inQuotes escaped : Bool) (slice input : List Char) :
    Shape (items inParens inQuotes escaped slice input)
      (strayParen inParens inQuotes escaped (trim slice).isEmpty input) := by
  induction input generalizing inParens inQuotes escaped slice with
  | nil =>
      rw [items, strayParen]
      split_ifs
      · exact .refused [] _ rfl
      · exact .complete [] rfl
      · exact .refused [] _ rfl
      · exact .complete [trim slice] rfl
  | cons c input ih =>
      have hpush (inParens : Nat) (inQuotes escaped : Bool) :
          Shape (items inParens inQuotes escaped (slice ++ [c]) input)
            (strayParen inParens inQuotes escaped ((trim slice).isEmpty && isWhitespace c)
              input) := by
        rw [← trim_push_isEmpty]
        exact ih inParens inQuotes escaped (slice ++ [c])
      rw [items, strayParen]
      split_ifs
      · exact hpush inParens true true
      · exact hpush inParens _ false
      · exact hpush inParens true false
      · exact hpush (inParens + 1) false false
      · exact .stray [] rfl
      · exact hpush (inParens - 1) false false
      · exact .refused [] _ rfl
      · exact (ih 0 false false []).cons _
      · exact hpush inParens false false

theorem length_trim_le (s : List Char) : (trim s).length ≤ s.length :=
  (List.rdropWhile_prefix _ _).length_le.trans (List.dropWhile_suffix _).length_le

/-- An argument is no longer than what it is cut from. -/
theorem length_le_of_mem_items {inParens : Nat} {inQuotes escaped : Bool}
    {slice input a : List Char} (h : .ok a ∈ items inParens inQuotes escaped slice input) :
    a.length ≤ slice.length + input.length := by
  induction input generalizing inParens inQuotes escaped slice with
  | nil =>
      rw [items] at h
      split_ifs at h <;> simp [typeError, Outcome.fail] at h
      rw [h]
      exact length_trim_le slice
  | cons c input ih =>
      have hpush {inParens : Nat} {inQuotes escaped : Bool}
          (h : .ok a ∈ items inParens inQuotes escaped (slice ++ [c]) input) :
          a.length ≤ slice.length + (c :: input).length := by
        have hle := ih h
        simp only [List.length_append, List.length_cons, List.length_nil] at hle ⊢
        omega
      rw [items] at h
      split_ifs at h
      · exact hpush h
      · exact hpush h
      · exact hpush h
      · exact hpush h
      · simp [Outcome.panic] at h
      · exact hpush h
      · simp [typeError, Outcome.fail] at h
      · rcases List.mem_cons.mp h with harg | hrest
        · have hle := length_trim_le slice
          rw [Except.ok.inj harg]
          omega
        · have hle := ih hrest
          simp only [List.length_nil, List.length_cons] at hle ⊢
          omega
      · exact hpush h

end ArgsIterator

/-! ## Arguments -/

open ArgsIterator

/-- `parse_fixed_args` of a number of arguments, or `parse_variable_args`. -/
def argsOf : Option Nat → List Char → Result (List (List Char))
  | some n, following => parseFixedArgs n following
  | none, following => parseVariableArgs following

/-- What stands between the parentheses, where a list of arguments has them and does not end
in a comma. -/
def argsBody (following : List Char) : Option (List Char) :=
  if following.head? = some '(' ∧ following.getLast? = some ')' then
    if (trim following.tail.dropLast).getLast? = some ',' then none
    else some (trim following.tail.dropLast)
  else none

/-- The parser of at most `limit` arguments meets the stray parenthesis behind `k` of them. -/
def reached (limit : Option Nat) : Option Nat → Bool
  | none => false
  | some k => limit.all fun n => k ≤ n

/-- A stray parenthesis stands behind so few arguments that the parser meets it. -/
def strayIn (limit : Option Nat) (following : List Char) : Bool :=
  match argsBody following with
  | none => false
  | some body => reached limit (strayParen 0 false false true body)

theorem parseArgsIter_of_some {following body : List Char} (h : argsBody following = some body) :
    parseArgsIter following = .ok (items 0 false false [] body) := by
  unfold argsBody at h
  split_ifs at h with hparens hcomma
  obtain rfl := Option.some.inj h
  rw [parseArgsIter, stripParens, if_pos hparens, Outcome.ok_bind, if_neg hcomma]

theorem parseArgsIter_of_none {following : List Char} (h : argsBody following = none) :
    ∃ msg, parseArgsIter following = typeError msg := by
  unfold argsBody at h
  split_ifs at h with hparens hcomma
  · exact ⟨_, by rw [parseArgsIter, stripParens, if_pos hparens, Outcome.ok_bind, if_pos hcomma]⟩
  · exact ⟨_, by rw [parseArgsIter, stripParens, if_neg hparens]; rfl⟩

theorem traverse_oks_append (args : List (List Char)) (items : List (Result (List Char))) :
    Outcome.traverse id (args.map .ok ++ items) =
      (Outcome.traverse id items >>= fun more => .ok (args ++ more)) := by
  induction args with
  | nil =>
      cases h : Outcome.traverse id items with
      | error e => simp [h]
      | ok more => simp [h]
  | cons a args ih =>
      show (Outcome.traverse id (args.map .ok ++ items) >>= fun more => .ok (a :: more)) = _
      rw [ih]
      cases Outcome.traverse id items with
      | error e => rfl
      | ok more => rfl

/-- How the parsers of arguments end on the items of the splitter. -/
inductive ArgsEnd (o : Result (List (List Char))) : Bool → Prop
  | accepted (args : List (List Char)) (h : o = .ok args) : ArgsEnd o false
  | refused (msg : List Fragment) (h : o = typeError msg) : ArgsEnd o false
  | panics (h : o = .panic .subtractOverflow) : ArgsEnd o true

theorem variable_end {items : List (Result (List Char))} {k : Option Nat} (h : Shape items k) :
    ArgsEnd (Outcome.traverse id items) (reached none k) := by
  cases h with
  | complete args h =>
      exact .accepted args (by rw [h, traverse_oks])
  | refused args msg h => exact .refused msg (by rw [h, traverse_oks_append]; rfl)
  | stray args h => exact .panics (by rw [h, traverse_oks_append]; rfl)

/-- The first `n` items, and a look at the one behind them. -/
def fixedArgs (n : Nat) (items : List (Result (List Char))) : Result (List (List Char)) :=
  Outcome.traverse id (items.take n) >>= fun args =>
    match items.drop n with
    | [] => .ok args
    | .error (.panic p) :: _ => .panic p
    | _ :: _ => typeError [.text "too many arguments"]

theorem fixedArgs_of_le {args : List (List Char)} {n : Nat} (h : n ≤ args.length)
    (items : List (Result (List Char))) :
    fixedArgs n (args.map .ok ++ items) =
      match (args.drop n).map .ok ++ items with
      | [] => .ok (args.take n)
      | .error (.panic p) :: _ => .panic p
      | _ :: _ => typeError [.text "too many arguments"] := by
  have htake : (args.map (.ok : List Char → Result (List Char)) ++ items).take n =
      (args.take n).map .ok ++ [] := by
    rw [List.take_append_of_le_length (by simpa using h), List.append_nil, List.map_take]
  have hdrop : (args.map (.ok : List Char → Result (List Char)) ++ items).drop n =
      (args.drop n).map .ok ++ items := by
    rw [List.drop_append_of_le_length (by simpa using h), List.map_drop]
  rw [fixedArgs, htake, hdrop, traverse_oks_append]
  simp

theorem fixedArgs_of_lt {args : List (List Char)} {n : Nat} (h : args.length < n)
    (item : Result (List Char)) :
    fixedArgs n (args.map .ok ++ [item]) = (item >>= fun a => .ok (args ++ [a])) := by
  have hlength : (args.map (.ok : List Char → Result (List Char)) ++ [item]).length ≤ n := by
    simpa using Nat.succ_le_of_lt h
  rw [fixedArgs, List.take_of_length_le hlength, List.drop_of_length_le hlength,
    traverse_oks_append]
  cases item with
  | error e => rfl
  | ok a => rfl

theorem fixed_end (n : Nat) {items : List (Result (List Char))} {k : Option Nat}
    (h : Shape items k) : ArgsEnd (fixedArgs n items) (reached (some n) k) := by
  -- With more arguments than there is room for the rest is not looked at.
  have hmany {args : List (List Char)} (hlt : n < args.length) (items : List (Result (List Char))) :
      fixedArgs n (args.map .ok ++ items) = typeError [.text "too many arguments"] := by
    rw [fixedArgs_of_le (Nat.le_of_lt hlt)]
    cases hdrop : args.drop n with
    | nil => exact absurd (List.drop_eq_nil_iff.mp hdrop) (Nat.not_le.mpr hlt)
    | cons a rest => rfl
  cases h with
  | complete args h =>
      rcases Nat.lt_or_ge n args.length with hlt | hle
      · have hfixed := hmany hlt []
        rw [List.append_nil] at hfixed
        exact .refused _ (by rw [h, hfixed])
      · have hlength : (args.map (.ok : List Char → Result (List Char))).length ≤ n := by
          simpa using hle
        refine .accepted args ?_
        rw [h, fixedArgs, List.take_of_length_le hlength, List.drop_of_length_le hlength,
          traverse_oks]
        rfl
  | refused args msg h =>
      rcases Nat.lt_trichotomy args.length n with hlt | heq | hgt
      · exact .refused msg (by rw [h, fixedArgs_of_lt hlt]; rfl)
      · refine .refused [.text "too many arguments"] ?_
        rw [h, fixedArgs_of_le heq.ge, List.drop_of_length_le heq.le]
        rfl
      · exact .refused _ (by rw [h, hmany hgt])
  -- The parenthesis is reached only where the arguments before it leave room.
  | stray args h =>
      rcases Nat.lt_trichotomy args.length n with hlt | heq | hgt
      · have hreached : reached (some n) (some args.length) = true := by
          simpa [reached] using hlt.le
        rw [hreached]
        exact .panics (by rw [h, fixedArgs_of_lt hlt]; rfl)
      · have hreached : reached (some n) (some args.length) = true := by
          simpa [reached] using heq.le
        rw [hreached]
        refine .panics ?_
        rw [h, fixedArgs_of_le heq.ge, List.drop_of_length_le heq.le]
        rfl
      · have hreached : reached (some n) (some args.length) = false := by
          simpa [reached] using hgt
        rw [hreached]
        exact .refused _ (by rw [h, hmany hgt])

/-- **Where the parser of arguments panics**: at a stray parenthesis that it reaches. -/
theorem argsOf_end (limit : Option Nat) (following : List Char) :
    ArgsEnd (argsOf limit following) (strayIn limit following) := by
  rw [strayIn]
  cases hbody : argsBody following with
  | none =>
      obtain ⟨msg, hmsg⟩ := parseArgsIter_of_none hbody
      cases limit with
      | none => exact .refused msg (by rw [argsOf, parseVariableArgs, hmsg]; rfl)
      | some n => exact .refused msg (by rw [argsOf, parseFixedArgs, hmsg]; rfl)
  | some body =>
      have hiter := parseArgsIter_of_some hbody
      have hshape := items_shape 0 false false [] body
      cases limit with
      | none =>
          rw [argsOf, parseVariableArgs, hiter, Outcome.ok_bind]
          exact variable_end hshape
      | some n =>
          rw [argsOf, parseFixedArgs, hiter, Outcome.ok_bind]
          exact fixed_end n hshape

theorem mem_of_traverse_id {items : List (Result (List Char))} {args : List (List Char)}
    (h : Outcome.traverse id items = .ok args) {a : List Char} (ha : a ∈ args) : .ok a ∈ items := by
  induction items generalizing args with
  | nil =>
      obtain rfl := Except.ok.inj h
      cases ha
  | cons item items ih =>
      obtain ⟨b, hb, h⟩ := Outcome.bind_eq_ok.mp h
      obtain ⟨bs, hbs, h⟩ := Outcome.bind_eq_ok.mp h
      obtain rfl := Except.ok.inj h
      rcases List.mem_cons.mp ha with rfl | hmem
      · exact hb ▸ List.mem_cons_self
      · exact List.mem_cons_of_mem item (ih hbs hmem)

theorem length_argsBody_lt {following body : List Char} (h : argsBody following = some body) :
    body.length < following.length := by
  unfold argsBody at h
  split_ifs at h with hparens hcomma
  obtain rfl := Option.some.inj h
  have htrim := length_trim_le following.tail.dropLast
  cases following with
  | nil => cases hparens.1
  | cons c following =>
      rw [List.length_dropLast, List.tail_cons] at htrim
      rw [List.length_cons, List.tail_cons]
      omega

/-- The arguments are shorter than the text that they are cut from. -/
theorem length_lt_of_argsOf {limit : Option Nat} {following : List Char} {args : List (List Char)}
    (h : argsOf limit following = .ok args) {a : List Char} (ha : a ∈ args) :
    a.length < following.length := by
  cases hbody : argsBody following with
  | none =>
      obtain ⟨msg, hmsg⟩ := parseArgsIter_of_none hbody
      cases limit with
      | none =>
          rw [argsOf, parseVariableArgs, hmsg] at h
          cases h
      | some n =>
          rw [argsOf, parseFixedArgs, hmsg] at h
          cases h
  | some body =>
      have hlt := length_argsBody_lt hbody
      have hiter := parseArgsIter_of_some hbody
      -- An argument is one of the items, which are cut from the body between the parentheses.
      suffices hitem : .ok a ∈ items 0 false false [] body by
        have hle := length_le_of_mem_items hitem
        rw [List.length_nil] at hle
        omega
      cases limit with
      | none =>
          rw [argsOf, parseVariableArgs, hiter, Outcome.ok_bind] at h
          exact mem_of_traverse_id h ha
      | some n =>
          rw [argsOf, parseFixedArgs, hiter, Outcome.ok_bind] at h
          obtain ⟨read, hread, h⟩ := Outcome.bind_eq_ok.mp h
          have hargs : read = args := by
            revert h
            cases (items 0 false false [] body).drop n with
            | nil => exact Except.ok.inj
            | cons item rest =>
                cases item with
                | ok b => intro h; cases h
                | error e =>
                    cases e with
                    | error e => intro h; cases h
                    | panic p => intro h; cases h
          subst hargs
          exact List.mem_of_mem_take (mem_of_traverse_id hread ha)

end ClickhouseArrow
