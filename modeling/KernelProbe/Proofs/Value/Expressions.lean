import KernelProbe.Expression
import KernelProbe.Proofs.Image.Samples
import KernelProbe.Proofs.Text.Blanks
import KernelProbe.Proofs.Value.Pointers

/-!
# The place that an expression names

An expression is a name behind stars, with blanks wherever they please: in front of a star, behind
it, at both ends. Each star is one pointer followed. The star next to the name is followed first, so
an expression in another one, behind a star of its own, is evaluated before that star is; and the
first place on the way from which no pointer leads on says what is wrong.

* `Expression.Starred` -- the texts that are a name behind stars;
* `Value.LeadsIn` -- the places reached by following pointers;
* `Value.DeadEnd` -- the places from which no pointer leads on, each with its fault;
* `Target.evaluate_follows_stars` -- what becomes of every expression.
-/

namespace KernelProbe

open Text (Blanks isBlank trim trimStart trimEnd)

/-! ## 1. Names behind stars -/

namespace Expression

/-- A name as it stands in an expression: no star in front, and no blank at either end. -/
structure IsName (name : List Char) : Prop where
  front : ∀ c ∈ name.head?, c ≠ '*' ∧ isBlank c = false
  back : ∀ c ∈ name.getLast?, isBlank c = false

/-- **A text is a name behind stars.** There may be blanks in front of each star, in front of the
    name and behind it. -/
inductive Starred : Nat → List Char → List Char → Prop where
  /-- No star. -/
  | name {gap name trail : List Char} (hgap : Blanks gap) (hname : IsName name)
      (htrail : Blanks trail) : Starred 0 name (gap ++ name ++ trail)
  /-- A star in front of others. -/
  | star {stars : Nat} {name gap rest : List Char} (hgap : Blanks gap)
      (hrest : Starred stars name rest) : Starred (stars + 1) name (gap ++ '*' :: rest)

/-- A stretch of stars and blanks, as it stands in front of a name. -/
def Front (front : List Char) : Prop :=
  ∀ c ∈ front, c = '*' ∨ isBlank c = true

instance (front : List Char) : Decidable (Front front) :=
  List.decidableBAll _ front

variable {stars : Nat} {name gap trail rest text : List Char} {c : Char}

theorem isBlank_star : isBlank '*' = false := by
  decide

theorem Starred.cons_star (h : Starred stars name text) :
    Starred (stars + 1) name ('*' :: text) :=
  @Starred.star _ _ [] _ nofun h

theorem Starred.blank (hc : isBlank c = true) (h : Starred stars name text) :
    Starred stars name (c :: text) := by
  cases h with
  | name hgap hname htrail => exact .name (hgap.cons hc) hname htrail
  | star hgap hrest => exact .star (hgap.cons hc) hrest

theorem Starred.blanks (hgap : Blanks gap) (h : Starred stars name text) :
    Starred stars name (gap ++ text) := by
  induction gap with
  | nil => exact h
  | cons c gap ih => exact (ih hgap.tail.2).blank hgap.tail.1

/-- Stars and blanks put in front of an expression: the stars count. -/
theorem Starred.before {front : List Char} (hfront : Front front) (h : Starred stars name text) :
    Starred (stars + front.count '*') name (front ++ text) := by
  induction front with
  | nil => exact h
  | cons c front ih =>
    have hrest := ih fun d hd => hfront d (List.mem_cons_of_mem c hd)
    by_cases hstar : c = '*'
    · subst hstar
      rw [List.count_cons_self]
      exact hrest.cons_star
    · rw [List.count_cons_of_ne hstar]
      exact hrest.blank ((hfront c List.mem_cons_self).resolve_left hstar)

/-- Blanks put behind it do not count. -/
theorem Starred.behind (htrail : Blanks trail) (h : Starred stars name text) :
    Starred stars name (text ++ trail) := by
  induction h with
  | @name gap name trail' hgap hname htrail' =>
    rw [List.append_assoc]
    refine .name hgap hname fun c hc => ?_
    rcases List.mem_append.mp hc with hc | hc
    · exact htrail' c hc
    · exact htrail c hc
  | star hgap _ ih =>
    rw [List.append_assoc, List.cons_append]
    exact .star hgap ih

/-! ## 2. What is read of a text -/

theorem leadingStars_star :
    leadingStars ('*' :: rest) = ((leadingStars rest).1 + 1, (leadingStars rest).2) :=
  if_pos rfl

theorem leadingStars_blank (h : isBlank c = true) :
    leadingStars (c :: rest) = leadingStars rest := by
  have hne : c ≠ '*' := by
    rintro rfl
    cases isBlank_star.symm.trans h
  rw [leadingStars, if_neg hne, if_pos h]

theorem leadingStars_blanks (h : Blanks gap) :
    leadingStars (gap ++ text) = leadingStars text := by
  induction gap with
  | nil => rfl
  | cons c gap ih => rw [List.cons_append, leadingStars_blank h.tail.1, ih h.tail.2]

theorem leadingStars_name (hname : IsName name) (htrail : Blanks trail) :
    (leadingStars (name ++ trail)).1 = 0 ∧ trimEnd (leadingStars (name ++ trail)).2 = name := by
  cases name with
  | nil =>
    have hblanks : leadingStars (trail ++ []) = leadingStars [] := leadingStars_blanks htrail
    rw [List.append_nil] at hblanks
    rw [List.nil_append, hblanks]
    exact ⟨rfl, rfl⟩
  | cons c name =>
    obtain ⟨hstar, hsolid⟩ := hname.front c rfl
    rw [List.cons_append, leadingStars, if_neg hstar, if_neg (by rw [hsolid]; decide),
      ← List.cons_append, Text.trimEnd_blanks htrail, Text.trimEnd_of_back hname.back]
    exact ⟨rfl, rfl⟩

theorem Starred.read (h : Starred stars name text) :
    (leadingStars text).1 = stars ∧ trimEnd (leadingStars text).2 = name := by
  induction h with
  | name hgap hname htrail =>
    rw [List.append_assoc, leadingStars_blanks hgap]
    exact leadingStars_name hname htrail
  | star hgap _ ih =>
    rw [leadingStars_blanks hgap, leadingStars_star]
    exact ⟨congrArg (· + 1) ih.1, ih.2⟩

theorem starred_leadingStars (text : List Char) :
    Starred (leadingStars text).1 (trimEnd (leadingStars text).2) text := by
  fun_induction leadingStars text with
  | case1 => exact @Starred.name [] [] [] nofun ⟨nofun, nofun⟩ nofun
  | case2 rest stars name hrest ih =>
    rw [hrest] at ih
    exact ih.cons_star
  | case3 c rest hstar hblank ih => exact ih.blank hblank
  | case4 c rest hstar hsolid =>
    obtain ⟨trail, htrail, htext, hback⟩ := Text.exists_trail (c :: rest)
    have hfront : ∀ d ∈ (trimEnd (c :: rest)).head?, d ≠ '*' ∧ isBlank d = false := by
      intro d hd
      obtain ⟨more, hmore⟩ := List.head?_eq_some_iff.mp (Option.mem_def.mp hd)
      rw [hmore] at htext
      cases htext
      exact ⟨hstar, Bool.eq_false_iff.mpr hsolid⟩
    have hname := @Starred.name [] _ _ nofun ⟨hfront, hback⟩ htrail
    rwa [List.nil_append, ← htext] at hname

/-- **What is read of a text** is the name that it is and the number of stars in front of it. -/
theorem parse_eq_iff {text : String} {expression : Expression} :
    parse text = expression ↔
      Starred expression.stars expression.symbol.toList text.toList := by
  constructor
  · rintro rfl
    show Starred _ (String.ofList _).toList _
    rw [String.toList_ofList]
    exact starred_leadingStars text.toList
  · intro h
    obtain ⟨hstars, hname⟩ := h.read
    show Expression.mk _ (String.ofList _) = _
    rw [hstars, hname, String.ofList_toList]

theorem exists_starred (text : String) :
    ∃ (stars : Nat) (name : String), Starred stars name.toList text.toList :=
  ⟨_, _, parse_eq_iff.mp rfl⟩

/-- **An expression without the blanks at its ends** is a name, or a star and an expression. -/
theorem Starred.trim (h : Starred stars name text) :
    (stars = 0 ∧ IsName name ∧ trim text = name) ∨
      ∃ fewer inner, stars = fewer + 1 ∧ Starred fewer name inner ∧ trim text = '*' :: inner := by
  cases h with
  | @name gap _ trail hgap hname htrail =>
    refine .inl ⟨rfl, hname, ?_⟩
    have hstart : trimStart (name ++ trail) = name ++ trail ∨ name = [] := by
      cases name with
      | nil => exact .inr rfl
      | cons c name => exact .inl (Text.trimStart_of_front fun d hd => (hname.front d hd).2)
    unfold Text.trim
    rw [List.append_assoc, Text.trimStart_blanks hgap]
    rcases hstart with hstart | rfl
    · rw [hstart, Text.trimEnd_blanks htrail, Text.trimEnd_of_back hname.back]
    · rw [← List.append_nil trail, List.nil_append, Text.trimStart_blanks htrail]
      rfl
  | @star fewer _ gap rest hgap hrest =>
    refine .inr ⟨fewer, trimEnd rest, rfl, ?_, ?_⟩
    · obtain ⟨trail, htrail, htext, -⟩ := Text.exists_trail rest
      obtain ⟨hstars, hname⟩ := hrest.read
      have hinner := starred_leadingStars (trimEnd rest)
      have hwhole := hinner.behind htrail
      rw [← htext] at hwhole
      rwa [← hwhole.read.1, ← hwhole.read.2, hstars, hname] at hinner
    · unfold Text.trim
      rw [Text.trimStart_blanks hgap, Text.trimStart_of_front, Text.trimEnd_cons isBlank_star]
      intro c hc
      cases hc
      exact isBlank_star

theorem parse_eq_of_starred {text other : String}
    (h : ∀ stars name, Starred stars name text.toList → Starred stars name other.toList) :
    parse other = parse text :=
  parse_eq_iff.mpr (h _ _ (parse_eq_iff.mp rfl))

end Expression

/-! ## 3. Pointers, one after the other -/

namespace Value

variable {target : Target} {place next : Value} {fault : Fault} {count : Nat}

/-- **A place from which no pointer leads on**, with the fault that says why. -/
inductive DeadEnd (target : Target) (place : Value) : Fault → Prop where
  /-- There is no pointer. -/
  | notAPointer (hkind : ∀ pointee, place.layout.kind ≠ .pointer pointee) :
      DeadEnd target place (.notAPointer place.type)
  /-- The pointer has a width that is not read. -/
  | width {pointee : String} (hkind : place.layout.kind = .pointer pointee)
      (hwidth : ¬ place.layout.Numeric) :
      DeadEnd target place (.unsupportedWidth place.type place.layout.size)
  /-- The pointer lies in memory that cannot be read. -/
  | unreadable {pointee : String} (hkind : place.layout.kind = .pointer pointee)
      (hwidth : place.layout.Numeric)
      (hmemory : target.memory? place.address place.layout.size.toNat = none) :
      DeadEnd target place place.unavailable
  /-- Nothing is known of the type that the pointer points to. -/
  | unknownType {pointee : String} {address : UInt64}
      (hkind : place.layout.kind = .pointer pointee) (hcontains : place.Contains target address)
      (hne : address ≠ 0) (hlayout : target.layout? pointee = none) :
      DeadEnd target place (.noType pointee)
  /-- The pointer is null. -/
  | null (hnull : place.IsNull target) : DeadEnd target place (.memoryUnavailable 0 0)

/-- The place that a pointer leads to, which must not be null. -/
def followed (target : Target) (place : Value) : Except Fault Value := do
  demand (← place.follow target) (.memoryUnavailable 0 0)

theorem followed_eq_ok : place.followed target = .ok next ↔ place.LeadsTo target next := by
  unfold followed
  simp only [bind_eq_ok, demand_eq_ok, exists_eq_right, follow_eq_some_iff_leadsTo]

theorem deadEnd_of_follow_error (h : place.follow target = .error fault) :
    place.DeadEnd target fault := by
  unfold follow at h
  split at h
  next pointee hkind =>
    rcases bind_eq_error.mp h with h | ⟨address, hword, h⟩
    · by_cases hwidth : place.layout.Numeric
      · rw [word_of_numeric hwidth, map_eq_error, Target.memory, demand_eq_error] at h
        obtain ⟨hmemory, rfl⟩ := h
        exact .unreadable hkind hwidth hmemory
      · rw [word_of_not_numeric hwidth] at h
        cases h
        exact .width hkind hwidth
    · by_cases hzero : address = 0
      · rw [if_pos hzero] at h
        cases h
      · rw [if_neg hzero] at h
        rcases bind_eq_error.mp h with h | ⟨object, -, h⟩
        · obtain ⟨hlayout, rfl⟩ := Target.valueAt_eq_error.mp h
          exact .unknownType hkind (word_eq_ok_iff_contains.mp hword) hzero hlayout
        · cases h
  next hkind =>
    cases h
    exact .notAPointer hkind

theorem DeadEnd.followed (h : place.DeadEnd target fault) :
    place.followed target = .error fault := by
  refine bind_eq_error.mpr ?_
  cases h with
  | notAPointer hkind =>
    refine .inl ?_
    unfold follow
    split
    next pointee hpointer => exact absurd hpointer (hkind pointee)
    next => rfl
  | width hkind hwidth =>
    refine .inl ?_
    unfold follow
    rw [hkind]
    exact bind_eq_error.mpr (.inl (word_of_not_numeric hwidth))
  | unreadable hkind hwidth hmemory =>
    refine .inl ?_
    unfold follow
    rw [hkind]
    refine bind_eq_error.mpr (.inl ?_)
    rw [word_of_numeric hwidth, map_eq_error]
    exact demand_eq_error.mpr ⟨hmemory, rfl⟩
  | unknownType hkind hcontains hne hlayout =>
    refine .inl ?_
    unfold follow
    rw [hkind]
    refine bind_eq_error.mpr (.inr ⟨_, word_eq_ok_iff_contains.mpr hcontains, ?_⟩)
    rw [if_neg hne]
    exact bind_eq_error.mpr (.inl (Target.valueAt_eq_error.mpr ⟨hlayout, rfl⟩))
  | null hnull => exact .inr ⟨none, follow_eq_none_iff_isNull.mpr hnull, rfl⟩

/-- **A pointer cannot be followed from a dead end**, and from no other place. -/
theorem followed_eq_error : place.followed target = .error fault ↔ place.DeadEnd target fault := by
  refine ⟨fun h => ?_, DeadEnd.followed⟩
  rcases bind_eq_error.mp h with h | ⟨answer, hanswer, h⟩
  · exact deadEnd_of_follow_error h
  · obtain ⟨rfl, rfl⟩ := demand_eq_error.mp h
    exact .null (follow_eq_none_iff_isNull.mp hanswer)

/-- **The place reached by following pointers**, so many of them. -/
inductive LeadsIn (target : Target) : Nat → Value → Value → Prop where
  | here (place : Value) : LeadsIn target 0 place place
  | step {count : Nat} {place next last : Value} (hstep : place.LeadsTo target next)
      (hrest : LeadsIn target count next last) : LeadsIn target (count + 1) place last

end Value

namespace Expression

variable {target : Target} {place last : Value} {fault : Fault} {count : Nat}

theorem followAll_succ : followAll target (count + 1) place =
    place.followed target >>= followAll target count := by
  unfold Value.followed
  rw [followAll]
  cases place.follow target <;> rfl

/-- The last pointer can be followed from where all others lead. -/
theorem followAll_succ_last : followAll target (count + 1) place =
    followAll target count place >>= Value.followed target := by
  induction count generalizing place with
  | zero =>
    rw [followAll_succ]
    show (place.followed target >>= fun next => .ok next) = place.followed target
    cases place.followed target <;> rfl
  | succ count ih =>
    rw [followAll_succ, followAll_succ]
    cases place.followed target with
    | error fault => rfl
    | ok next => exact ih

theorem place_name (symbol : String) : Expression.place target ⟨0, symbol⟩ =
    target.symbol symbol >>= fun symbol => target.valueAt symbol.address symbol.type := by
  unfold place
  cases target.symbol symbol with
  | error fault => rfl
  | ok symbol =>
    show (target.valueAt symbol.address symbol.type >>= fun start => .ok start) =
      target.valueAt symbol.address symbol.type
    cases target.valueAt symbol.address symbol.type <;> rfl

theorem place_star (symbol : String) : Expression.place target ⟨count + 1, symbol⟩ =
    Expression.place target ⟨count, symbol⟩ >>= Value.followed target := by
  unfold place
  cases target.symbol symbol with
  | error fault => rfl
  | ok symbol =>
    show (target.valueAt symbol.address symbol.type >>= followAll target (count + 1)) =
      target.valueAt symbol.address symbol.type >>= followAll target count >>= _
    cases target.valueAt symbol.address symbol.type with
    | error fault => rfl
    | ok start => exact followAll_succ_last

theorem followAll_eq_ok :
    followAll target count place = .ok last ↔ place.LeadsIn target count last := by
  induction count generalizing place with
  | zero =>
    refine ⟨fun h => ?_, fun h => ?_⟩
    · cases h
      exact .here _
    · cases h
      rfl
  | succ count ih =>
    simp only [followAll_succ, bind_eq_ok, Value.followed_eq_ok, ih]
    refine ⟨fun ⟨next, hstep, hrest⟩ => .step hstep hrest, fun h => ?_⟩
    cases h with
    | step hstep hrest => exact ⟨_, hstep, hrest⟩

/-- **Following pointers stops at the first dead end.** -/
theorem followAll_eq_error : followAll target count place = .error fault ↔
    ∃ steps < count, ∃ stop, place.LeadsIn target steps stop ∧ stop.DeadEnd target fault := by
  induction count generalizing place with
  | zero =>
    refine iff_of_false (fun h => nomatch h) ?_
    intro ⟨steps, hsteps, _⟩
    exact absurd hsteps (Nat.not_lt_zero steps)
  | succ count ih =>
    simp only [followAll_succ, bind_eq_error, Value.followed_eq_ok, Value.followed_eq_error, ih]
    constructor
    · intro h
      rcases h with h | ⟨next, hstep, steps, hsteps, stop, hrest, hstop⟩
      · exact ⟨0, Nat.succ_pos count, place, .here place, h⟩
      · exact ⟨steps + 1, Nat.succ_lt_succ hsteps, stop, .step hstep hrest, hstop⟩
    · intro ⟨steps, hsteps, stop, hreach, hstop⟩
      cases hreach with
      | here => exact .inl hstop
      | @step steps _ next _ hstep hrest =>
        exact .inr ⟨next, hstep, steps, Nat.lt_of_succ_lt_succ hsteps, stop, hrest, hstop⟩

end Expression

/-! ## 4. What becomes of an expression -/

namespace Target

open Expression (Starred)

variable {target : Target} {stars : Nat} {name text : String}

theorem evaluate_of_starred (h : Starred stars name.toList text.toList) :
    target.evaluate text = Expression.place target ⟨stars, name⟩ := by
  have hparse : Expression.parse text = ⟨stars, name⟩ := Expression.parse_eq_iff.mpr h
  rw [evaluate, hparse]

/-- Texts that are the same names behind as many stars have the same place. -/
theorem evaluate_congr {other : String}
    (h : ∀ stars name, Starred stars name text.toList → Starred stars name other.toList) :
    target.evaluate other = target.evaluate text := by
  rw [evaluate, evaluate, Expression.parse_eq_of_starred h]

/-- **An expression unwinds from the inside.** If a star is left in front when the blanks are
    trimmed, the rest is an expression, and what it names is followed once; else the text is the
    name of a symbol. -/
theorem evaluate_unwinds (target : Target) (text : String) : target.evaluate text =
    match trim text.toList with
    | '*' :: inner => target.evaluate (String.ofList inner) >>= Value.followed target
    | name => target.symbol (String.ofList name) >>= fun symbol =>
        target.valueAt symbol.address symbol.type := by
  obtain ⟨stars, name, h⟩ := Expression.exists_starred text
  rw [evaluate_of_starred h]
  rcases h.trim with ⟨rfl, hname, htrim⟩ | ⟨fewer, inner, rfl, hinner, htrim⟩
  · rw [htrim, Expression.place_name]
    split
    next inner hstar => exact absurd rfl (hname.front '*' (by rw [hstar]; rfl)).1
    next => rw [String.ofList_toList]
  · have hevaluate : target.evaluate (String.ofList inner) =
        Expression.place target ⟨fewer, name⟩ :=
      evaluate_of_starred (by rwa [String.toList_ofList])
    rw [htrim, Expression.place_star, ← hevaluate]
    rfl

/-- **Expressions follow their stars.** Every text is a name behind stars. If there is no symbol of
    that name, or no layout for its type, this is the answer; else so many pointers are followed
    from the symbol as there are stars, and the answer is the place reached, or the fault of the
    first dead end on the way. So an expression behind one more star is evaluated first, and what
    it names is followed then. Blanks may be put in front of an expression and behind it, and
    between its stars and behind them, and nothing changes. -/
theorem evaluate_follows_stars (target : Target) :
    (∀ text : String, ∃ (stars : Nat) (name : String), Starred stars name.toList text.toList) ∧
    (∀ (stars : Nat) (name text : String), Starred stars name.toList text.toList →
      (target.symbol? name = none → target.evaluate text = .error (.noSymbol name)) ∧
      (∀ symbol, target.symbol? name = some symbol → target.layout? symbol.type = none →
        target.evaluate text = .error (.noType symbol.type)) ∧
      ∀ symbol layout, target.symbol? name = some symbol →
        target.layout? symbol.type = some layout →
        (∀ place, target.evaluate text = .ok place ↔
          Value.LeadsIn target stars ⟨symbol.address, layout⟩ place) ∧
        ∀ fault, target.evaluate text = .error fault ↔ ∃ steps < stars, ∃ stop,
          Value.LeadsIn target steps ⟨symbol.address, layout⟩ stop ∧
            stop.DeadEnd target fault) ∧
    (∀ text, target.evaluate text =
      match trim text.toList with
      | '*' :: inner => target.evaluate (String.ofList inner) >>= Value.followed target
      | name => target.symbol (String.ofList name) >>= fun symbol =>
          target.valueAt symbol.address symbol.type) ∧
    (∀ gap text trail : String, Blanks gap.toList → Blanks trail.toList →
      target.evaluate (gap ++ text ++ trail) = target.evaluate text) ∧
    ∀ front gap text : String, Expression.Front front.toList → Blanks gap.toList →
      target.evaluate (front ++ gap ++ text) = target.evaluate (front ++ text) := by
  refine ⟨Expression.exists_starred, fun stars name text h => ?_, evaluate_unwinds target,
    fun gap text trail hgap htrail => ?_, fun front gap text hfront hgap => ?_⟩
  · rw [evaluate_of_starred h]
    unfold Expression.place
    refine ⟨fun hsymbol => ?_, fun symbol hsymbol hlayout => ?_,
      fun symbol layout hsymbol hlayout => ?_⟩
    · exact bind_eq_error.mpr (.inl (demand_eq_error.mpr ⟨hsymbol, rfl⟩))
    · refine bind_eq_error.mpr (.inr ⟨symbol, demand_eq_ok.mpr hsymbol, ?_⟩)
      exact bind_eq_error.mpr (.inl (valueAt_eq_error.mpr ⟨hlayout, rfl⟩))
    · have hsymbol : target.symbol name = .ok symbol := demand_eq_ok.mpr hsymbol
      have hstart : target.valueAt symbol.address symbol.type = .ok ⟨symbol.address, layout⟩ :=
        valueAt_eq_ok.mpr ⟨rfl, hlayout⟩
      rw [hsymbol]
      show (∀ place, target.valueAt symbol.address symbol.type >>= _ = _ ↔ _) ∧
        ∀ fault, target.valueAt symbol.address symbol.type >>= _ = _ ↔ _
      rw [hstart]
      exact ⟨fun place => Expression.followAll_eq_ok, fun fault => Expression.followAll_eq_error⟩
  · refine evaluate_congr fun stars name h => ?_
    rw [String.toList_append, String.toList_append]
    exact (h.blanks hgap).behind htrail
  · obtain ⟨stars, name, h⟩ := Expression.exists_starred text
    have hwithout : Starred (stars + front.toList.count '*') name.toList
        (front ++ text).toList := by
      rw [String.toList_append]
      exact h.before hfront
    have hwith : Starred (stars + front.toList.count '*') name.toList
        (front ++ gap ++ text).toList := by
      rw [String.toList_append, String.toList_append, List.append_assoc]
      exact (h.blanks hgap).before hfront
    rw [evaluate_of_starred hwithout, evaluate_of_starred hwith]

/-- A kernel with one type, the pointers to such pointers, and a symbol for the first of two. -/
def chainedKernel : Target :=
  Image.view
    { Image.ofLayouts [("link", .pointer "link" "link")] with
      symbols := [("first", ⟨0x1000, "link"⟩)]
      memory := ⟨[wordsAt 0x1000 [0x2000], wordsAt 0x2000 [0]]⟩ }

/-- One star leads to the second pointer. That one is null, and the third star is not looked at;
    the blanks are not, either. -/
theorem evaluate_follows_stars_chained :
    Starred 1 "first".toList "\t*\u3000first".toList ∧
    Value.LeadsIn chainedKernel 1 ⟨0x1000, .pointer "link" "link"⟩
      ⟨0x2000, .pointer "link" "link"⟩ ∧
    Starred 3 "first".toList " ** \n* first\u00a0".toList ∧
    (∃ steps < 3, ∃ stop,
      Value.LeadsIn chainedKernel steps ⟨0x1000, .pointer "link" "link"⟩ stop ∧
        stop.DeadEnd chainedKernel (.memoryUnavailable 0 0)) ∧
    chainedKernel.evaluate " ** \n* first\u00a0" =
      chainedKernel.evaluate " *** first\u00a0" := by
  obtain ⟨-, hstarred, -, -, hgap⟩ := evaluate_follows_stars chainedKernel
  have hone : Starred 1 "first".toList "\t*\u3000first".toList :=
    (@Expression.parse_eq_iff _ ⟨1, "first"⟩).mp (by decide)
  have hthree : Starred 3 "first".toList " ** \n* first\u00a0".toList :=
    (@Expression.parse_eq_iff _ ⟨3, "first"⟩).mp (by decide)
  obtain ⟨-, -, hplace⟩ := hstarred 1 "first" "\t*\u3000first" hone
  obtain ⟨-, -, hfault⟩ := hstarred 3 "first" " ** \n* first\u00a0" hthree
  refine ⟨hone, ((hplace ⟨0x1000, "link"⟩ (.pointer "link" "link") rfl rfl).1 _).mp (by rfl),
    hthree, ((hfault ⟨0x1000, "link"⟩ (.pointer "link" "link") rfl rfl).2 _).mp (by rfl), ?_⟩
  exact hgap " **" " \n" "* first\u00a0" (by decide) (by decide)

end Target

end KernelProbe
