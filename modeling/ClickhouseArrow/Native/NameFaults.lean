import ClickhouseArrow.Native.NameArguments

/-!
# Names that the parser of types does not survive

`Type::from_str` ends on every name.  It panics in two places: where the splitter of
arguments meets a closing parenthesis that nothing opened, and where a time zone is one
single quote.  The module says of which names either place is reached: a name is refused,
accepted or faulty by its own text and by that of the names it holds, in their order.
-/

namespace ClickhouseArrow

open Wire

/-! ## Names -/

namespace FromStr

/-- How many arguments the parser looks for behind an identifier, where it splits what follows
into arguments: `some none` stands for any number. -/
def argLimit : String → Option (Option Nat)
  | "Decimal" | "DateTime64" | "Map" => some (some 2)
  | "Decimal32" | "Decimal64" | "Decimal128" | "Decimal256" | "FixedString" | "DateTime"
  | "LowCardinality" | "Array" | "Nullable" => some (some 1)
  | "Tuple" => some none
  | _ => none

/-- The identifiers behind which names of types stand. -/
def takesTypes (ident : String) : Bool :=
  ident ∈ ["LowCardinality", "Array", "Nullable", "Map", "Tuple"]

/-- The arguments are names of types, as many as the identifier takes. -/
def holdsTypes (ident : String) (args : List (List Char)) : Bool :=
  takesTypes ident && (argLimit ident == some none || argLimit ident == some (some args.length))

/-- The time zone that the parser is about to cut out of its quotes is one single quote. -/
def loneQuote (ident : String) (args : List (List Char)) : Bool :=
  match ident, args with
  | "DateTime", zone :: _ => zone == ['\'']
  | "DateTime64", precision :: zone :: _ =>
      (parseUnsigned usizeMax precision).isOk && zone == ['\'']
  | _, _ => false

/-- A parser that knows no type at all. -/
def refuse (_ : List Char) : Result ChType := typeError []

theorem parseUsize_noPanic (complaint : String) (s : List Char) :
    (parseUsize complaint s).NoPanic := by
  unfold parseUsize
  split
  · exact .ok _
  · exact .fail _

theorem entries_noPanic {ι : Type} (parse : List Char → Except IntErrorKind ι)
    (state : ParseEnum.State) (escaped : Bool) (name number input : List Char) :
    (ParseEnum.entries parse state escaped name number input).NoPanic := by
  have hvalue (s : List Char) : (ParseEnum.value parse s).NoPanic := by
    unfold ParseEnum.value
    split
    · exact .ok _
    · exact .fail _
  induction input generalizing state escaped name number with
  | nil =>
      cases state with
      | inValue => exact .ite (fun _ => .ok _) fun _ => (hvalue number).bind fun _ => .ok _
      | _ => exact .fail _
  | cons c input ih =>
      -- Whatever the next state is, the rest of the input is read without a panic.
      have ih (state : ParseEnum.State) (escaped : Bool) (name number : List Char) :
          Outcome.NoPanic (ParseEnum.entries parse state escaped name number input) :=
        ih state escaped name number
      cases state with
      | expectQuote =>
          refine .ite (fun _ => ?_) fun _ => .ite (fun _ => ?_) fun _ => .fail _
          · exact ih .inName escaped name number
          · exact ih .expectQuote escaped name number
      | inName =>
          refine .ite (fun _ => ?_) fun _ => .ite (fun _ => ?_) fun _ => .ite (fun _ => ?_) fun _ => ?_
          · exact ih .inName false (name ++ [c]) number
          · exact ih .inName true name number
          · exact ih .expectEqual false name number
          · exact ih .inName false (name ++ [c]) number
      | expectEqual =>
          refine .ite (fun _ => ?_) fun _ => .ite (fun _ => ?_) fun _ => .fail _
          · exact ih .inValue escaped name number
          · exact ih .expectEqual escaped name number
      | inValue =>
          refine .ite (fun _ => ?_) fun _ => .ite (fun _ => ?_) fun _ => ?_
          · exact (hvalue number).bind fun _ => (ih .expectQuote escaped [] []).bind fun _ => .ok _
          · exact ih .inValue escaped name number
          · exact ih .inValue escaped name (number ++ [c])

theorem options_noPanic {ι : Type} (parse : List Char → Except IntErrorKind ι)
    (following : List Char) : (ParseEnum.options parse following).NoPanic := by
  refine Outcome.NoPanic.bind (.ite (fun _ => .ok _) fun _ => .fail _) fun body => ?_
  refine .ite (fun _ => .ok _) fun _ => (entries_noPanic _ _ _ _ _ _).bind fun _ => ?_
  exact .ite (fun _ => .fail _) fun _ => .ok _

section WithArgs

variable {lex : Lexicon} {ident : String} {limit : Option Nat} {following : List Char}
  {args : List (List Char)}

/-- Where there are no arguments to split, nothing panics. -/
theorem withArgs_noPanic_of_none (h : argLimit ident = none) (parse : List Char → Result ChType)
    (following : List Char) : (withArgs lex parse ident following).NoPanic := by
  unfold withArgs
  split
  case h_9 => exact .map _ (options_noPanic _ _)
  case h_10 => exact .map _ (options_noPanic _ _)
  case h_16 => exact .fail _
  case h_17 => exact .fail _
  all_goals exact absurd h (by decide)

/-- What ends the parser of the arguments ends that of the name. -/
theorem withArgs_of_error (h : argLimit ident = some limit) {e : Fault Error}
    (hargs : argsOf limit following = .error e) (parse : List Char → Result ChType) :
    withArgs lex parse ident following = .error e := by
  unfold argLimit at h
  split at h <;> cases h <;>
    simp only [withArgs, decimal, scaled, fixedString, dateTime, dateTime64, oneArg] <;>
    rw [argsOf] at hargs <;> rw [hargs] <;> rfl

/-- Only behind the identifiers that take types are names of types parsed. -/
theorem withArgs_eq_refuse (h : takesTypes ident = false) (parse : List Char → Result ChType)
    (following : List Char) :
    withArgs lex parse ident following = withArgs lex refuse ident following := by
  unfold withArgs
  split <;> first | rfl | exact absurd h (by decide)

theorem oneArg_noPanic (complaint : List (List Char) → List Fragment)
    (h : (argsOf (some 1) following).NoPanic) : (oneArg complaint following).NoPanic := by
  refine Outcome.NoPanic.bind h fun args => ?_
  split
  · exact .ok _
  · exact .fail _

theorem scaled_noPanic (name : String) (max : Nat) (h : (argsOf (some 1) following).NoPanic) :
    (scaled name max following).NoPanic :=
  (oneArg_noPanic _ h).bind fun _ => (parseUsize_noPanic _ _).bind fun _ =>
    .ite (fun _ => .fail _) fun _ => .ok _

theorem timezone_noPanic {name : String} {zone : List Char} (h : zone ≠ ['\'']) :
    (timezone lex name zone).NoPanic := by
  unfold timezone
  refine .ite (fun _ => .fail _) fun hquotes => .ite (fun hshort => ?_) fun _ => ?_
  · cases zone with
    | nil => exact absurd (not_not.mp hquotes).1 (by simp)
    | cons c zone =>
        obtain rfl : zone = [] := by
          rw [List.length_cons] at hshort
          exact List.length_eq_zero_iff.mp (by omega)
        have hc : c = '\'' := by simpa using (not_not.mp hquotes).1
        exact absurd (by rw [hc]) h
  · split
    · exact .ok _
    · exact .fail _

/-- Behind its arguments, a time zone panics at a lone quote only. -/
theorem dateTime_noPanic (hargs : argsOf (some 1) following = .ok args)
    (hquote : loneQuote "DateTime" args = false) : (dateTime lex following).NoPanic := by
  rw [dateTime]
  rw [argsOf] at hargs
  rw [hargs, Outcome.ok_bind]
  cases args with
  | nil => exact .ok _
  | cons zone args =>
      have hzone : zone ≠ ['\''] := by simpa [loneQuote] using hquote
      exact (timezone_noPanic hzone).bind fun _ => .ok _

theorem dateTime64_noPanic (hargs : argsOf (some 2) following = .ok args)
    (hquote : loneQuote "DateTime64" args = false) : (dateTime64 lex following).NoPanic := by
  rw [dateTime64]
  rw [argsOf] at hargs
  rw [hargs, Outcome.ok_bind]
  cases args with
  | nil => exact .fail _
  | cons precision args =>
      show (parseUsize _ precision >>= _).NoPanic
      cases args with
      | nil => exact (parseUsize_noPanic _ _).bind fun _ => .ok _
      | cons zone args =>
          cases hprecision : parseUnsigned usizeMax precision with
          | error e =>
              rw [parseUsize, hprecision]
              exact .fail _
          | ok n =>
              have hzone : zone ≠ ['\''] := by
                simpa [loneQuote, hprecision, Except.isOk, Except.toBool] using hquote
              rw [parseUsize, hprecision, Outcome.ok_bind]
              exact (timezone_noPanic hzone).bind fun _ => .ok _

theorem decimal_noPanic (h : (argsOf (some 2) following).NoPanic) : (decimal following).NoPanic := by
  refine Outcome.NoPanic.bind h fun args => ?_
  split
  · refine (parseUsize_noPanic _ _).bind fun p => (parseUsize_noPanic _ _).bind fun s => ?_
    exact .ite (fun _ => .fail _) fun _ => .ite (fun _ => .ok _) fun _ => .ite (fun _ => .ok _)
      fun _ => .ite (fun _ => .ok _) fun _ => .ite (fun _ => .ok _) fun _ => .fail _
  · exact .fail _

/-- Arguments that are no names of types panic at a lone quote only. -/
theorem withArgs_noPanic (h : argLimit ident = some limit)
    (hargs : argsOf limit following = .ok args) (htypes : takesTypes ident = false)
    (hquote : loneQuote ident args = false) (parse : List Char → Result ChType) :
    (withArgs lex parse ident following).NoPanic := by
  have hsplit : (argsOf limit following).NoPanic := by
    rw [hargs]
    exact .ok args
  unfold argLimit at h
  split at h <;> cases h
  case h_1 => exact decimal_noPanic hsplit
  case h_2 => exact dateTime64_noPanic hargs hquote
  case h_3 => cases htypes
  case h_4 => exact (scaled_noPanic _ _ hsplit).map _
  case h_5 => exact (scaled_noPanic _ _ hsplit).map _
  case h_6 => exact (scaled_noPanic _ _ hsplit).map _
  case h_7 => exact (scaled_noPanic _ _ hsplit).map _
  case h_8 =>
    exact (oneArg_noPanic _ hsplit).bind fun _ => (parseUsize_noPanic _ _).bind fun _ =>
      .ite (fun _ => .fail _) fun _ => .ok _
  case h_9 => exact dateTime_noPanic hargs hquote
  all_goals cases htypes

theorem withArgs_loneQuote (h : argLimit ident = some limit)
    (hargs : argsOf limit following = .ok args) (hquote : loneQuote ident args = true)
    (parse : List Char → Result ChType) :
    withArgs lex parse ident following = .panic .indexOutOfBounds := by
  unfold loneQuote at hquote
  split at hquote
  · cases h
    rw [argsOf] at hargs
    obtain rfl := beq_iff_eq.mp hquote
    show dateTime lex following = _
    rw [dateTime, hargs]
    rfl
  · cases h
    rw [argsOf] at hargs
    rw [Bool.and_eq_true] at hquote
    obtain rfl := beq_iff_eq.mp hquote.2
    show dateTime64 lex following = _
    rw [dateTime64, hargs, Outcome.ok_bind]
    cases hprecision : parseUnsigned usizeMax _ with
    | error e =>
        rw [hprecision] at hquote
        cases hquote.1
    | ok n =>
        simp only [parseUsize, hprecision, Outcome.ok_bind]
        rfl
  · cases hquote

/-- An identifier that takes one type. -/
theorem oneType (make : ChType → ChType) (complaint : List (List Char) → List Fragment)
    (hargs : argsOf (some 1) following = .ok args) (parse : List Char → Result ChType) :
    (args.length = 1 ∧ ∃ build : List ChType → ChType,
        (oneArg complaint following >>= fun a => make <$> parse a) =
          (Outcome.traverse parse args >>= fun ts => .ok (build ts))) ∨
      (args.length ≠ 1 ∧ ∃ msg,
        (oneArg complaint following >>= fun a => make <$> parse a) = typeError msg) := by
  rw [argsOf] at hargs
  rw [oneArg, hargs]
  cases args with
  | nil => exact .inr ⟨by simp, _, rfl⟩
  | cons a args =>
      cases args with
      | nil =>
          refine .inl ⟨rfl, fun ts => make (ts.headD .object), ?_⟩
          show make <$> parse a = (parse a >>= fun t => .ok [t]) >>= _
          cases parse a with
          | error e => rfl
          | ok t => rfl
      | cons b args => exact .inr ⟨by simp, _, rfl⟩

theorem twoTypes (lex : Lexicon) (hargs : argsOf (some 2) following = .ok args)
    (parse : List Char → Result ChType) :
    (args.length = 2 ∧ ∃ build : List ChType → ChType,
        withArgs lex parse "Map" following =
          (Outcome.traverse parse args >>= fun ts => .ok (build ts))) ∨
      (args.length ≠ 2 ∧ ∃ msg, withArgs lex parse "Map" following = typeError msg) := by
  rw [argsOf] at hargs
  simp only [withArgs, hargs, Outcome.ok_bind]
  rcases args with _ | ⟨a, _ | ⟨b, _ | ⟨c, args⟩⟩⟩
  · exact .inr ⟨by simp, _, rfl⟩
  · exact .inr ⟨by simp, _, rfl⟩
  · refine .inl ⟨rfl, fun ts => .map (ts.headD .object) (ts.tail.headD .object), ?_⟩
    show (parse a >>= fun key => parse b >>= fun value => _) =
      ((parse a >>= fun key => (parse b >>= fun value => .ok [value]) >>= fun ts => .ok (key :: ts))
        >>= _)
    cases parse a with
    | error e => rfl
    | ok key =>
        cases parse b with
        | error e => rfl
        | ok value => rfl
  · exact .inr ⟨by simp, _, rfl⟩

/-- The names of types among the arguments are parsed from the left. -/
theorem withArgs_types (h : argLimit ident = some limit) (hargs : argsOf limit following = .ok args)
    (htypes : takesTypes ident = true) (parse : List Char → Result ChType) :
    (holdsTypes ident args = true ∧ ∃ build : List ChType → ChType,
        withArgs lex parse ident following =
          (Outcome.traverse parse args >>= fun ts => .ok (build ts))) ∨
      (holdsTypes ident args = false ∧
        ∃ msg, withArgs lex parse ident following = typeError msg) := by
  have hcount : holdsTypes ident args = (limit == none || limit == some args.length) := by
    rw [holdsTypes, htypes, h]
    cases limit <;> simp
  rw [hcount]
  have hone (P : Prop) (hp : args.length = 1 ∧ P) :
      (some 1 == none || some 1 == some args.length) = true ∧ P := ⟨by simp [hp.1], hp.2⟩
  have hnone (P : Prop) (hp : args.length ≠ 1 ∧ P) :
      (some 1 == none || some 1 == some args.length) = false ∧ P :=
    ⟨by simpa using hp.1.symm, hp.2⟩
  unfold argLimit at h
  split at h <;> cases h
  case h_3 =>
    rcases twoTypes lex hargs parse with ⟨hlength, hbuild⟩ | ⟨hlength, hmsg⟩
    · exact .inl ⟨by simp [hlength], hbuild⟩
    · exact .inr ⟨by simpa using hlength.symm, hmsg⟩
  case h_13 =>
    refine .inl ⟨rfl, .tuple, ?_⟩
    rw [argsOf] at hargs
    simp only [withArgs, hargs, Outcome.ok_bind]
    cases Outcome.traverse parse args with
    | error e => rfl
    | ok ts => rfl
  case h_10 => exact (oneType .lowCardinality _ hargs parse).imp (hone _) (hnone _)
  case h_11 => exact (oneType .array _ hargs parse).imp (hone _) (hnone _)
  case h_12 => exact (oneType .nullable _ hargs parse).imp (hone _) (hnone _)
  all_goals cases htypes

end WithArgs

end FromStr

/-! ## Which names are accepted, and which are faulty -/

namespace ChType

open FromStr

/-- The names that are accepted. -/
inductive Accepted (lex : Lexicon) : List Char → Prop
  /-- An identifier alone. -/
  | bare {s ident rest : List Char} (hname : eatIdentifier lex s = (ident, rest))
      (hrest : (trim rest).isEmpty = true) {t : ChType}
      (h : FromStr.bare (String.ofList ident) = .ok t) : Accepted lex s
  /-- An identifier with arguments that are not names of types. -/
  | leaf {s ident rest : List Char} (hname : eatIdentifier lex s = (ident, rest))
      (hrest : (trim rest).isEmpty = false) (htypes : takesTypes (String.ofList ident) = false)
      {t : ChType} (h : withArgs lex refuse (String.ofList ident) (trim rest) = .ok t) :
      Accepted lex s
  /-- An identifier with names that are accepted. -/
  | types {s ident rest : List Char} (hname : eatIdentifier lex s = (ident, rest))
      (hrest : (trim rest).isEmpty = false) {limit : Option Nat}
      (hlimit : argLimit (String.ofList ident) = some limit) {args : List (List Char)}
      (hargs : argsOf limit (trim rest) = .ok args)
      (htypes : holdsTypes (String.ofList ident) args = true)
      (h : ∀ a ∈ args, Accepted lex a) : Accepted lex s

/-- The names at which the parser panics. -/
inductive Faulty (lex : Lexicon) : List Char → Prop
  /-- A closing parenthesis that nothing opened stands among the arguments. -/
  | stray {s ident rest : List Char} (hname : eatIdentifier lex s = (ident, rest))
      (hrest : (trim rest).isEmpty = false) {limit : Option Nat}
      (hlimit : argLimit (String.ofList ident) = some limit)
      (h : strayIn limit (trim rest) = true) : Faulty lex s
  /-- A time zone is one single quote. -/
  | quote {s ident rest : List Char} (hname : eatIdentifier lex s = (ident, rest))
      (hrest : (trim rest).isEmpty = false) {limit : Option Nat}
      (hlimit : argLimit (String.ofList ident) = some limit) {args : List (List Char)}
      (hargs : argsOf limit (trim rest) = .ok args)
      (h : loneQuote (String.ofList ident) args = true) : Faulty lex s
  /-- Behind names that are accepted stands a faulty one. -/
  | inside {s ident rest : List Char} (hname : eatIdentifier lex s = (ident, rest))
      (hrest : (trim rest).isEmpty = false) {limit : Option Nat}
      (hlimit : argLimit (String.ofList ident) = some limit) {args before after : List (List Char)}
      {a : List Char} (hargs : argsOf limit (trim rest) = .ok args)
      (htypes : holdsTypes (String.ofList ident) args = true)
      (hsplit : args = before ++ a :: after) (hbefore : ∀ b ∈ before, Accepted lex b)
      (h : Faulty lex a) : Faulty lex s

/-- A computation ends with a value where `A` holds, panics where `F` does, and fails where
neither does. -/
inductive Ends {α : Type} (A F : Prop) (o : Result α) : Prop
  | accepted (a : α) (h : o = .ok a) (hA : A) (hF : ¬ F)
  | refused (e : Error) (h : o = .fail e) (hA : ¬ A) (hF : ¬ F)
  | panics (p : Panic) (hp : p ≠ .outOfFuel) (h : o = .panic p) (hA : ¬ A) (hF : F)

theorem Ends.congr {α : Type} {A F A' F' : Prop} {o : Result α} (h : Ends A F o) (hA : A' ↔ A)
    (hF : F' ↔ F) : Ends A' F' o := by
  rw [propext hA, propext hF]
  exact h

theorem Ends.map {α β : Type} {A F : Prop} {o : Result α} (h : Ends A F o) (f : α → β) :
    Ends A F (o >>= fun a => .ok (f a)) := by
  cases h with
  | accepted a h hA hF => exact .accepted (f a) (by rw [h]; rfl) hA hF
  | refused e h hA hF => exact .refused e (by rw [h]; rfl) hA hF
  | panics p hp h hA hF => exact .panics p hp (by rw [h]; rfl) hA hF

/-- Without a panic, a computation ends with a value or fails. -/
theorem Ends.of_noPanic {α : Type} {A F : Prop} {o : Result α} (h : o.NoPanic)
    (hA : A ↔ ∃ a, o = .ok a) (hF : ¬ F) : Ends A F o := by
  cases o with
  | ok a => exact .accepted a rfl (hA.mpr ⟨a, rfl⟩) hF
  | error e =>
      cases e with
      | error e => exact .refused e rfl (fun ha => by obtain ⟨a, ha⟩ := hA.mp ha; cases ha) hF
      | panic p => exact absurd rfl (h p)

/-- Behind names that are accepted stands a faulty one. -/
def FirstFaulty (lex : Lexicon) (args : List (List Char)) : Prop :=
  ∃ before a after, args = before ++ a :: after ∧ (∀ b ∈ before, Accepted lex b) ∧ Faulty lex a

theorem not_firstFaulty_nil (lex : Lexicon) : ¬ FirstFaulty lex [] := by
  rintro ⟨before, a, after, hsplit, -⟩
  exact absurd hsplit.symm (by simp)

theorem firstFaulty_cons {lex : Lexicon} {a : List Char} {args : List (List Char)} :
    FirstFaulty lex (a :: args) ↔ Faulty lex a ∨ Accepted lex a ∧ FirstFaulty lex args := by
  constructor
  · rintro ⟨before, b, after, hsplit, hbefore, hb⟩
    cases before with
    | nil =>
        obtain ⟨rfl, -⟩ := List.cons.inj hsplit
        exact .inl hb
    | cons c before =>
        obtain ⟨rfl, hrest⟩ := List.cons.inj hsplit
        refine .inr ⟨hbefore a List.mem_cons_self, before, b, after, hrest, fun d hd => ?_, hb⟩
        exact hbefore d (List.mem_cons_of_mem a hd)
  · rintro (ha | ⟨ha, before, b, after, rfl, hbefore, hb⟩)
    · exact ⟨[], a, args, rfl, by simp, ha⟩
    · refine ⟨a :: before, b, after, rfl, fun d hd => ?_, hb⟩
      rcases List.mem_cons.mp hd with rfl | hmem
      · exact ha
      · exact hbefore d hmem

/-- Names are parsed from the left, up to the first that is not accepted. -/
theorem traverse_ends {lex : Lexicon} {parse : List Char → Result ChType}
    {args : List (List Char)}
    (h : ∀ a ∈ args, Ends (Accepted lex a) (Faulty lex a) (parse a)) :
    Ends (∀ a ∈ args, Accepted lex a) (FirstFaulty lex args) (Outcome.traverse parse args) := by
  induction args with
  | nil => exact .accepted [] rfl (by simp) (not_firstFaulty_nil lex)
  | cons a args ih =>
      have hrest := ih fun b hb => h b (List.mem_cons_of_mem a hb)
      have hall : (∀ b ∈ a :: args, Accepted lex b) ↔
          Accepted lex a ∧ ∀ b ∈ args, Accepted lex b := List.forall_mem_cons
      show Ends _ _ (parse a >>= fun t => Outcome.traverse parse args >>= fun ts => .ok (t :: ts))
      cases h a List.mem_cons_self with
      | accepted t ht hA hF =>
          rw [ht, Outcome.ok_bind]
          refine (hrest.map fun ts => t :: ts).congr ?_ ?_
          · rw [hall, and_iff_right hA]
          · rw [firstFaulty_cons, and_iff_right hA, or_iff_right hF]
      | refused e he hA hF =>
          rw [he]
          refine .refused e rfl (fun hb => hA (hall.mp hb).1) fun hb => ?_
          exact (firstFaulty_cons.mp hb).elim hF fun hb => hA hb.1
      | panics p hp he hA hF =>
          rw [he]
          exact .panics p hp rfl (fun hb => hA (hall.mp hb).1) (firstFaulty_cons.mpr (.inl hF))

section Inversion

variable {lex : Lexicon} {s ident rest : List Char}

theorem faulty_iff (hname : eatIdentifier lex s = (ident, rest)) :
    Faulty lex s ↔ (trim rest).isEmpty = false ∧ ∃ limit,
      argLimit (String.ofList ident) = some limit ∧
        (strayIn limit (trim rest) = true ∨ ∃ args, argsOf limit (trim rest) = .ok args ∧
          (loneQuote (String.ofList ident) args = true ∨
            holdsTypes (String.ofList ident) args = true ∧ FirstFaulty lex args)) := by
  constructor
  · intro h
    cases h with
    | stray hname' hrest hlimit h =>
        obtain ⟨rfl, rfl⟩ := Prod.mk.inj (hname.symm.trans hname')
        exact ⟨hrest, _, hlimit, .inl h⟩
    | quote hname' hrest hlimit hargs h =>
        obtain ⟨rfl, rfl⟩ := Prod.mk.inj (hname.symm.trans hname')
        exact ⟨hrest, _, hlimit, .inr ⟨_, hargs, .inl h⟩⟩
    | inside hname' hrest hlimit hargs htypes hsplit hbefore h =>
        obtain ⟨rfl, rfl⟩ := Prod.mk.inj (hname.symm.trans hname')
        exact ⟨hrest, _, hlimit, .inr ⟨_, hargs, .inr ⟨htypes, _, _, _, hsplit, hbefore, h⟩⟩⟩
  · rintro ⟨hrest, limit, hlimit, h | ⟨args, hargs, h | ⟨htypes, _, _, _, hsplit, hbefore, h⟩⟩⟩
    · exact .stray hname hrest hlimit h
    · exact .quote hname hrest hlimit hargs h
    · exact .inside hname hrest hlimit hargs htypes hsplit hbefore h

theorem accepted_iff (hname : eatIdentifier lex s = (ident, rest)) :
    Accepted lex s ↔
      if (trim rest).isEmpty = true then ∃ t, FromStr.bare (String.ofList ident) = .ok t
      else if takesTypes (String.ofList ident) = true then
        ∃ limit args, argLimit (String.ofList ident) = some limit ∧
          argsOf limit (trim rest) = .ok args ∧ holdsTypes (String.ofList ident) args = true ∧
          ∀ a ∈ args, Accepted lex a
      else ∃ t, withArgs lex refuse (String.ofList ident) (trim rest) = .ok t := by
  constructor
  · intro h
    cases h with
    | bare hname' hrest h =>
        obtain ⟨rfl, rfl⟩ := Prod.mk.inj (hname.symm.trans hname')
        rw [if_pos hrest]
        exact ⟨_, h⟩
    | leaf hname' hrest htypes h =>
        obtain ⟨rfl, rfl⟩ := Prod.mk.inj (hname.symm.trans hname')
        rw [if_neg (by simp [hrest]), if_neg (by simp [htypes])]
        exact ⟨_, h⟩
    | types hname' hrest hlimit hargs htypes h =>
        obtain ⟨rfl, rfl⟩ := Prod.mk.inj (hname.symm.trans hname')
        have htakes := (Bool.and_eq_true _ _ ▸ htypes).1
        rw [if_neg (by simp [hrest]), if_pos htakes]
        exact ⟨_, _, hlimit, hargs, htypes, h⟩
  · split_ifs with hrest htakes
    · rintro ⟨t, h⟩
      exact .bare hname hrest h
    · rintro ⟨limit, args, hlimit, hargs, htypes, h⟩
      exact .types hname (by simpa using hrest) hlimit hargs htypes h
    · rintro ⟨t, h⟩
      exact .leaf hname (by simpa using hrest) (by simpa using htakes) h

end Inversion

theorem bare_noPanic (ident : String) : (FromStr.bare ident).NoPanic := by
  unfold FromStr.bare
  split
  case h_33 => exact .fail _
  all_goals exact .ok _

theorem of_takesTypes {ident : String} (h : takesTypes ident = true) :
    (∃ limit, argLimit ident = some limit) ∧ ∀ args, loneQuote ident args = false := by
  simp only [takesTypes, List.mem_cons, List.not_mem_nil, or_false, decide_eq_true_eq] at h
  rcases h with rfl | rfl | rfl | rfl | rfl <;> exact ⟨⟨_, rfl⟩, fun _ => rfl⟩

theorem length_rest_le (lex : Lexicon) (s : List Char) :
    (eatIdentifier lex s).2.length ≤ s.length := by
  have hgo (first : Bool) : (eatIdentifier.go lex first s).2.length ≤ s.length := by
    induction s generalizing first with
    | nil => exact Nat.le_refl 0
    | cons c s ih =>
        rw [eatIdentifier.go]
        split_ifs
        · exact (ih false).trans (Nat.le_succ _)
        · exact Nat.le_refl _
  exact hgo true

/-- Behind an identifier that takes arguments, the parser ends on them. -/
theorem withArgs_ends_of_limit {lex : Lexicon} {ident : String} {following : List Char}
    {limit : Option Nat} {A F : Prop} (hlimit : argLimit ident = some limit)
    (hfaulty : F ↔ strayIn limit following = true ∨
      ∃ args, argsOf limit following = .ok args ∧ (loneQuote ident args = true ∨
        holdsTypes ident args = true ∧ FirstFaulty lex args))
    (haccepted : A ↔ if takesTypes ident = true then
        ∃ limit args, argLimit ident = some limit ∧ argsOf limit following = .ok args ∧
          holdsTypes ident args = true ∧ ∀ a ∈ args, Accepted lex a
      else ∃ t, withArgs lex refuse ident following = .ok t)
    {parse : List Char → Result ChType}
    (h : ∀ a : List Char, a.length < following.length →
      Ends (Accepted lex a) (Faulty lex a) (parse a)) :
    Ends A F (withArgs lex parse ident following) := by
  -- Where the arguments cannot be split, neither they nor the name are accepted.
  have hnot {e : Fault Error} (hargs : argsOf limit following = .error e) : ¬ A := by
    rw [haccepted]
    split_ifs
    · rintro ⟨limit', args, heq, hok, -⟩
      obtain rfl := Option.some.inj (hlimit.symm.trans heq)
      rw [hargs] at hok
      cases hok
    · rintro ⟨t, ht⟩
      rw [withArgs_of_error hlimit hargs] at ht
      cases ht
  have hend := argsOf_end limit following
  cases hstray : strayIn limit following with
  | true =>
      rw [hstray] at hend hfaulty
      cases hend with
      | panics hargs =>
          exact .panics .subtractOverflow (by decide) (withArgs_of_error hlimit hargs parse)
            (hnot hargs) (hfaulty.mpr (.inl rfl))
  | false =>
      rw [hstray] at hend hfaulty
      simp only [Bool.false_eq_true, false_or] at hfaulty
      cases hend with
      | refused msg hargs =>
          refine .refused (.typeParseError msg) (withArgs_of_error hlimit hargs parse)
            (hnot hargs) ?_
          rw [hfaulty]
          rintro ⟨args, hok, -⟩
          rw [hargs] at hok
          cases hok
      | accepted args hargs =>
          replace hfaulty : F ↔ loneQuote ident args = true ∨
              holdsTypes ident args = true ∧ FirstFaulty lex args := by
            rw [hfaulty, hargs]
            constructor
            · rintro ⟨args', heq, hfault⟩
              obtain rfl := Except.ok.inj heq
              exact hfault
            · intro hfault
              exact ⟨args, rfl, hfault⟩
          cases htakes : takesTypes ident with
          | true =>
              have hquote := (of_takesTypes htakes).2 args
              replace haccepted : A ↔ holdsTypes ident args = true ∧ ∀ a ∈ args, Accepted lex a := by
                rw [haccepted, if_pos htakes]
                constructor
                · rintro ⟨limit', args', heq, hok, hall⟩
                  obtain rfl := Option.some.inj (hlimit.symm.trans heq)
                  obtain rfl := Except.ok.inj (hargs.symm.trans hok)
                  exact hall
                · intro hall
                  exact ⟨limit, args, hlimit, hargs, hall⟩
              rcases withArgs_types hlimit hargs htakes parse with
                ⟨hholds, build, heq⟩ | ⟨hholds, msg, heq⟩
              · have hargsEnd := traverse_ends fun a ha => h a (length_lt_of_argsOf hargs ha)
                rw [heq]
                refine (hargsEnd.map build).congr ?_ ?_
                · rw [haccepted, and_iff_right hholds]
                · rw [hfaulty, hquote, and_iff_right hholds]
                  simp
              · refine .refused _ heq ?_ ?_
                · rw [haccepted, hholds]
                  simp
                · rw [hfaulty, hquote, hholds]
                  simp
          | false =>
              have hholds : holdsTypes ident args = false := by
                rw [holdsTypes, htakes, Bool.false_and]
              rw [if_neg (by simp [htakes])] at haccepted
              rw [withArgs_eq_refuse htakes]
              cases hquote : loneQuote ident args with
              | true =>
                  have hpanic : withArgs lex refuse ident following = .panic .indexOutOfBounds :=
                    withArgs_loneQuote hlimit hargs hquote refuse
                  refine .panics .indexOutOfBounds (by decide) hpanic ?_ (hfaulty.mpr (.inl hquote))
                  rw [haccepted, hpanic]
                  rintro ⟨t, ht⟩
                  cases ht
              | false =>
                  refine .of_noPanic (withArgs_noPanic hlimit hargs htakes hquote refuse)
                    haccepted ?_
                  rw [hfaulty, hquote, hholds]
                  simp

/-- Behind an identifier, the parser ends on what it finds. -/
theorem withArgs_ends {lex : Lexicon} {s ident rest : List Char}
    (hname : eatIdentifier lex s = (ident, rest)) (hrest : (trim rest).isEmpty = false)
    {parse : List Char → Result ChType}
    (h : ∀ a : List Char, a.length < (trim rest).length →
      Ends (Accepted lex a) (Faulty lex a) (parse a)) :
    Ends (Accepted lex s) (Faulty lex s) (withArgs lex parse (String.ofList ident) (trim rest)) := by
  have hfaulty := faulty_iff hname
  have haccepted := accepted_iff hname
  rw [if_neg (by simp [hrest])] at haccepted
  simp only [hrest, true_and] at hfaulty
  -- From here on only the name and what follows it matter.
  generalize String.ofList ident = ident at hfaulty haccepted ⊢
  generalize trim rest = following at hfaulty haccepted h ⊢
  cases hlimit : argLimit ident with
  | none =>
      -- A name without a limit takes no arguments.
      have htakes : takesTypes ident = false := by
        by_contra htakes
        obtain ⟨⟨limit, hsome⟩, -⟩ := of_takesTypes (by simpa using htakes)
        rw [hlimit] at hsome
        cases hsome
      rw [if_neg (by simp [htakes])] at haccepted
      rw [withArgs_eq_refuse htakes]
      refine .of_noPanic (withArgs_noPanic_of_none hlimit refuse following) haccepted ?_
      rw [hfaulty]
      rintro ⟨limit, hsome, -⟩
      rw [hlimit] at hsome
      cases hsome
  | some limit =>
      replace hfaulty : Faulty lex s ↔ strayIn limit following = true ∨
          ∃ args, argsOf limit following = .ok args ∧ (loneQuote ident args = true ∨
            holdsTypes ident args = true ∧ FirstFaulty lex args) := by
        rw [hfaulty, hlimit]
        constructor
        · rintro ⟨limit', heq, hfault⟩
          obtain rfl := Option.some.inj heq
          exact hfault
        · intro hfault
          exact ⟨limit, rfl, hfault⟩
      exact withArgs_ends_of_limit hlimit hfaulty haccepted h

/-- **The parser ends on every name**: with the type of an accepted one, in a panic on a
faulty one, with an error on any other. -/
theorem parse_ends (lex : Lexicon) {fuel : Nat} {s : List Char} (h : s.length < fuel) :
    Ends (Accepted lex s) (Faulty lex s) (FromStr.parse lex fuel s) := by
  induction fuel generalizing s with
  | zero => exact absurd h (Nat.not_lt_zero _)
  | succ fuel ih =>
      have hlength := length_rest_le lex s
      cases hname : eatIdentifier lex s with
      | mk ident rest =>
          rw [hname] at hlength
          replace hlength : rest.length ≤ s.length := hlength
          have hfaulty := faulty_iff hname
          have haccepted := accepted_iff hname
          rw [FromStr.parse, hname]
          show Ends _ _ (if ident.isEmpty = true then _ else _)
          by_cases hident : ident.isEmpty = true
          · -- Nothing is known by the empty identifier.
            obtain rfl := List.isEmpty_iff.mp hident
            rw [if_pos hident]
            refine .refused _ rfl ?_ ?_
            · rw [haccepted]
              split_ifs with hrest htakes
              · rintro ⟨t, ht⟩
                cases ht
              · cases htakes
              · rintro ⟨t, ht⟩
                cases ht
            · rw [hfaulty]
              rintro ⟨-, limit, hlimit, -⟩
              cases hlimit
          rw [if_neg hident]
          cases hrest : (trim rest).isEmpty with
          | true =>
              rw [if_pos hrest] at haccepted
              refine .of_noPanic (bare_noPanic _) haccepted ?_
              rw [hfaulty, hrest]
              simp
          | false =>
              -- Each argument is shorter than the name, so the induction covers it.
              refine withArgs_ends hname hrest fun a ha => ih ?_
              have hle := ArgsIterator.length_trim_le rest
              omega

/-- **The parser returns** exactly on the names that are not faulty, and it ends on all. -/
theorem fromStr_returns_iff (lex : Lexicon) (s : List Char) :
    fromStr lex s ≠ .panic .outOfFuel ∧
      (((∃ t, fromStr lex s = .ok t) ∨ ∃ e, fromStr lex s = .fail e) ↔ ¬ Faulty lex s) := by
  have hends : Ends (Accepted lex s) (Faulty lex s) (fromStr lex s) :=
    parse_ends lex (Nat.lt_succ_self _)
  cases hends with
  | accepted t h hA hF =>
      rw [h]
      refine ⟨fun hfuel => ?_, iff_of_true (.inl ⟨t, rfl⟩) hF⟩
      cases hfuel
  | refused e h hA hF =>
      rw [h]
      refine ⟨fun hfuel => ?_, iff_of_true (.inr ⟨e, rfl⟩) hF⟩
      cases hfuel
  | panics p hp h hA hF =>
      rw [h]
      refine ⟨fun hfuel => hp (by cases hfuel; rfl), iff_of_false ?_ (not_not.mpr hF)⟩
      rintro (⟨t, ht⟩ | ⟨e, he⟩)
      · cases ht
      · cases he

/-- **The accepted names** are those that the parser returns a type for. -/
theorem fromStr_ok_iff (lex : Lexicon) (s : List Char) :
    (∃ t, fromStr lex s = .ok t) ↔ Accepted lex s := by
  have hends : Ends (Accepted lex s) (Faulty lex s) (fromStr lex s) :=
    parse_ends lex (Nat.lt_succ_self _)
  cases hends with
  | accepted t h hA hF => exact iff_of_true ⟨t, h⟩ hA
  | refused e h hA hF =>
      refine iff_of_false ?_ hA
      rw [h]
      rintro ⟨t, ht⟩
      cases ht
  | panics p hp h hA hF =>
      refine iff_of_false ?_ hA
      rw [h]
      rintro ⟨t, ht⟩
      cases ht

/-- A stray parenthesis, and a lone quote. -/
theorem fromStr_panics_samples :
    fromStr .ascii "Array())".toList = .panic .subtractOverflow ∧
      fromStr .ascii "DateTime64(3,')".toList = .panic .indexOutOfBounds := by
  constructor
  · rfl
  · rfl

end ChType

end ClickhouseArrow
