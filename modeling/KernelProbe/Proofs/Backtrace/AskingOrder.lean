import KernelProbe.Backtrace.Roster
import Mathlib.Data.List.Nodup

/-!
# The order in which unwinders are asked

Whether a registration is granted depends on the registrations before it alone: it is, unless its
name was asked for before and it must not replace. A granted registration puts its unwinder in front
and takes away the one of the same name. So the roster after any registrations is told by the
granted ones: it has of each name the unwinder granted last, and they are asked in the order in
which they were granted, the latest first.

A frame passes down the roster until an unwinder answers. The unwinders that are switched off, and
those behind the one that answers, have no part in it: they are not asked, so that they are the same
afterwards, whatever they make of the frames that they are asked for.

* `Enrolment.Granted` -- the registrations that are granted;
* `Roster.unwinders_ofEnrolments` -- the roster after any registrations;
* `Roster.ask_append` -- a frame that some unwinders let pass;
* `Roster.latest_granted_first` -- the roster after registrations, and how it answers.
-/

namespace KernelProbe

/-! ## 1. Registrations -/

/-- A registration that is asked for. -/
structure Enrolment where
  unwinder : Unwinder
  /-- Whether an unwinder of the same name may be replaced. -/
  replace : Bool

namespace Enrolment

/-- The name that is asked for. -/
def name (enrolment : Enrolment) : String :=
  enrolment.unwinder.name

/-- **The registrations that are granted** after earlier ones: those that may replace, and those
    whose name was not asked for before. -/
def Granted (earlier : List Enrolment) (enrolment : Enrolment) : Prop :=
  enrolment.replace = true ∨ ∀ other ∈ earlier, other.name ≠ enrolment.name

instance (earlier : List Enrolment) (enrolment : Enrolment) :
    Decidable (enrolment.Granted earlier) :=
  inferInstanceAs (Decidable (_ ∨ _))

end Enrolment

namespace Roster

variable {roster : Roster} {unwinder : Unwinder} {name : String}

theorem mem_names : name ∈ roster.names ↔ ∃ unwinder ∈ roster.unwinders, unwinder.name = name :=
  List.mem_map

/-- A name that is in the roster is refused if it must not replace. -/
theorem register_taken (h : unwinder.name ∈ roster.names) :
    roster.register unwinder false = .error (.duplicateUnwinder unwinder.name) := by
  have hcontains : roster.names.contains unwinder.name = true := List.contains_iff_mem.mpr h
  unfold register
  rw [hcontains]
  rfl

/-- Where there is room for the name, or room is made, the new unwinder comes first. -/
theorem register_of_room {replace : Bool} (h : replace = true ∨ unwinder.name ∉ roster.names) :
    roster.register unwinder replace =
      .ok ⟨unwinder :: roster.unwinders.eraseP (·.name == unwinder.name)⟩ := by
  unfold register
  refine if_neg fun hrefused => ?_
  rw [Bool.and_eq_true, List.contains_iff_mem, Bool.not_eq_true'] at hrefused
  rcases h with hreplace | hnew
  · rw [hreplace] at hrefused
    exact Bool.noConfusion hrefused.2
  · exact hnew hrefused.1

/-- A new name only adds its unwinder. -/
theorem register_new (h : unwinder.name ∉ roster.names) (replace : Bool) :
    roster.register unwinder replace = .ok ⟨unwinder :: roster.unwinders⟩ := by
  rw [register_of_room (.inr h), List.eraseP_of_forall_not]
  intro other hother hsame
  exact h (mem_names.mpr ⟨other, hother, eq_of_beq hsame⟩)

/-- **Replacing takes away the old holder of the name**, the first one, and nothing else. -/
theorem register_replacing {front back : List Unwinder} {old : Unwinder}
    (hroster : roster.unwinders = front ++ old :: back) (hold : old.name = unwinder.name)
    (hfront : ∀ other ∈ front, other.name ≠ unwinder.name) :
    roster.register unwinder true = .ok ⟨unwinder :: (front ++ back)⟩ := by
  have hpassed : ∀ other ∈ front, ¬ (other.name == unwinder.name) = true :=
    fun other hother hsame => hfront other hother (eq_of_beq hsame)
  have hfound : (old.name == unwinder.name) = true := beq_iff_eq.mpr hold
  rw [register_of_room (.inl rfl), hroster, List.eraseP_append_right _ hpassed,
    List.eraseP_cons, hfound]
  rfl

/-- In a roster without double names the holder of a name stands in one place. -/
theorem exists_holder (hnodup : roster.names.Nodup) (h : name ∈ roster.names) :
    ∃ front old back, roster.unwinders = front ++ old :: back ∧ old.name = name ∧
      ∀ other ∈ front ++ back, other.name ≠ name := by
  obtain ⟨old, hold, rfl⟩ := mem_names.mp h
  obtain ⟨front, back, hsplit⟩ := List.append_of_mem hold
  refine ⟨front, old, back, hsplit, rfl, fun other hother hsame => ?_⟩
  unfold names at hnodup
  rw [hsplit, List.map_append, List.map_cons] at hnodup
  have hnot := (List.nodup_cons.mp (List.nodup_middle.mp hnodup)).1
  rw [← List.map_append] at hnot
  exact hnot (List.mem_map.mpr ⟨other, hother, hsame⟩)

/-! ## 2. Registrations one after the other -/

/-- The roster after a registration. One that is refused changes nothing. -/
def enrol (roster : Roster) (enrolment : Enrolment) : Roster :=
  match roster.register enrolment.unwinder enrolment.replace with
  | .ok after => after
  | .error _ => roster

/-- The roster after registrations, of which the latest stands first in the list. -/
def ofEnrolments : List Enrolment → Roster
  | [] => .empty
  | enrolment :: earlier => (ofEnrolments earlier).enrol enrolment

/-- The unwinders of the granted registrations, the latest first. -/
def granted : List Enrolment → List Unwinder
  | [] => []
  | enrolment :: earlier =>
    if enrolment.Granted earlier then enrolment.unwinder :: granted earlier else granted earlier

/-- **Of each name the first unwinder**, in the order of the list. -/
def firstOfEachName : List Unwinder → List Unwinder
  | [] => []
  | unwinder :: later =>
    unwinder :: (firstOfEachName later).filter (·.name != unwinder.name)

theorem enrol_of_ok {enrolment : Enrolment} {after : Roster}
    (h : roster.register enrolment.unwinder enrolment.replace = .ok after) :
    roster.enrol enrolment = after := by
  unfold enrol
  rw [h]

theorem enrol_of_error {enrolment : Enrolment} {fault : Fault}
    (h : roster.register enrolment.unwinder enrolment.replace = .error fault) :
    roster.enrol enrolment = roster := by
  unfold enrol
  rw [h]

/-- No name is left twice. -/
theorem nodup_firstOfEachName (unwinders : List Unwinder) :
    ((firstOfEachName unwinders).map Unwinder.name).Nodup := by
  induction unwinders with
  | nil => exact List.nodup_nil
  | cons unwinder later ih =>
    rw [firstOfEachName, List.map_cons, List.nodup_cons]
    constructor
    · intro hmem
      obtain ⟨other, hother, hsame⟩ := List.mem_map.mp hmem
      have hne := (List.mem_filter.mp hother).2
      rw [hsame] at hne
      simp at hne
    · exact ih.sublist (List.filter_sublist.map _)

/-- No name is lost. -/
theorem mem_names_firstOfEachName (unwinders : List Unwinder) :
    name ∈ (firstOfEachName unwinders).map Unwinder.name ↔
      name ∈ unwinders.map Unwinder.name := by
  induction unwinders with
  | nil => exact Iff.rfl
  | cons unwinder later ih =>
    rw [firstOfEachName, List.map_cons, List.map_cons, List.mem_cons, List.mem_cons, ← ih]
    by_cases hsame : name = unwinder.name
    · simp [hsame]
    · have hkept : name ∈ ((firstOfEachName later).filter (·.name != unwinder.name)).map
          Unwinder.name ↔ name ∈ (firstOfEachName later).map Unwinder.name := by
        simp only [List.mem_map, List.mem_filter]
        constructor
        · rintro ⟨other, ⟨hother, -⟩, hname⟩
          exact ⟨other, hother, hname⟩
        · rintro ⟨other, hother, rfl⟩
          exact ⟨other, ⟨hother, bne_iff_ne.mpr hsame⟩, rfl⟩
      rw [hkept]

/-- Every name that was asked for has been granted. -/
theorem mem_names_granted (history : List Enrolment) :
    name ∈ (granted history).map Unwinder.name ↔ name ∈ history.map Enrolment.name := by
  induction history with
  | nil => exact Iff.rfl
  | cons enrolment earlier ih =>
    rw [granted, List.map_cons, List.mem_cons]
    split
    next => rw [List.map_cons, List.mem_cons, ih]; rfl
    next hrefused =>
      -- what is refused was asked for before
      have htaken : ∃ other ∈ earlier, other.name = enrolment.name := by
        simpa [Enrolment.Granted] using (not_or.mp hrefused).2
      obtain ⟨other, hother, hsame⟩ := htaken
      rw [ih]
      refine ⟨.inr, ?_⟩
      rintro (rfl | h)
      · exact List.mem_map.mpr ⟨other, hother, hsame⟩
      · exact h

/-- Where no name stands twice, taking away the first unwinder of a name takes away all. -/
theorem eraseP_eq_filter {unwinders : List Unwinder}
    (h : (unwinders.map Unwinder.name).Nodup) (name : String) :
    unwinders.eraseP (·.name == name) = unwinders.filter (·.name != name) := by
  induction unwinders with
  | nil => rfl
  | cons unwinder later ih =>
    obtain ⟨hnot, hlater⟩ := List.nodup_cons.mp h
    by_cases hsame : unwinder.name = name
    · have hothers : ∀ other ∈ later, (other.name != name) = true := by
        intro other hother
        refine bne_iff_ne.mpr fun hother' => hnot (List.mem_map.mpr ⟨other, hother, ?_⟩)
        rw [hother', hsame]
      rw [List.eraseP_cons_of_pos (by simp [hsame]), List.filter_cons_of_neg (by simp [hsame]),
        List.filter_eq_self.mpr hothers]
    · rw [List.eraseP_cons_of_neg (by simp [hsame]), List.filter_cons_of_pos (by simp [hsame]),
        ih hlater]

/-- A registration that is granted takes the place of an older one of its name. -/
theorem enrol_of_room {enrolment : Enrolment} (hnodup : roster.names.Nodup)
    (h : enrolment.replace = true ∨ enrolment.name ∉ roster.names) :
    roster.enrol enrolment =
      ⟨enrolment.unwinder :: roster.unwinders.filter (·.name != enrolment.name)⟩ := by
  rw [enrol_of_ok (register_of_room h), eraseP_eq_filter hnodup]
  rfl

/-- A registration that is refused leaves the roster as it is. -/
theorem enrol_of_taken {enrolment : Enrolment} (hreplace : enrolment.replace = false)
    (h : enrolment.name ∈ roster.names) : roster.enrol enrolment = roster :=
  enrol_of_error (hreplace ▸ register_taken h)

/-- **The roster after any registrations** has of each name the unwinder that was granted last, the
    latest first. -/
theorem unwinders_ofEnrolments (history : List Enrolment) :
    (ofEnrolments history).unwinders = firstOfEachName (granted history) := by
  induction history with
  | nil => rfl
  | cons enrolment earlier ih =>
    have hnodup : (ofEnrolments earlier).names.Nodup := by
      rw [names, ih]
      exact nodup_firstOfEachName _
    have hnames : enrolment.name ∈ (ofEnrolments earlier).names ↔
        ∃ other ∈ earlier, other.name = enrolment.name := by
      rw [names, ih, mem_names_firstOfEachName, mem_names_granted, List.mem_map]
    rw [ofEnrolments, granted]
    split
    next hgranted =>
      have hroom : enrolment.replace = true ∨ enrolment.name ∉ (ofEnrolments earlier).names := by
        refine hgranted.imp_right fun hnew hmem => ?_
        obtain ⟨other, hother, hsame⟩ := hnames.mp hmem
        exact hnew other hother hsame
      rw [enrol_of_room hnodup hroom, ih]
      rfl
    next hrefused =>
      obtain ⟨hreplace, htaken⟩ := not_or.mp hrefused
      have hmem : enrolment.name ∈ (ofEnrolments earlier).names :=
        hnames.mpr (by simpa using htaken)
      rw [enrol_of_taken (Bool.eq_false_iff.mpr hreplace) hmem, ih]

/-- **No name stands twice** in the roster after any registrations. -/
theorem nodup_names (history : List Enrolment) : (ofEnrolments history).names.Nodup := by
  rw [names, unwinders_ofEnrolments]
  exact nodup_firstOfEachName _

/-- The names in the roster are those that were asked for. -/
theorem not_mem_names {history : List Enrolment} :
    name ∉ (ofEnrolments history).names ↔ ∀ other ∈ history, other.name ≠ name := by
  rw [names, unwinders_ofEnrolments, mem_names_firstOfEachName, mem_names_granted, List.mem_map]
  simp

/-! ## 3. A frame on its way down the roster -/

variable {target : Target} {registers : Registers}

/-- **An unwinder lets a frame pass**: it is switched off, or declines. -/
def Passes (target : Target) (registers : Registers) (unwinder : Unwinder) : Prop :=
  unwinder.enabled = true → (unwinder.unwind target registers).1.result = .ok none

/-- An unwinder after a frame has passed it: one that is switched off was not asked. -/
def passed (target : Target) (registers : Registers) (unwinder : Unwinder) : Unwinder :=
  if unwinder.enabled then (unwinder.unwind target registers).2 else unwinder

/-- The events of asking unwinders, as far as they are switched on. -/
def passingEvents (target : Target) (registers : Registers) (unwinders : List Unwinder) :
    Array Event :=
  (unwinders.filter Unwinder.enabled).foldr
    (fun unwinder later => (unwinder.unwind target registers).1.events ++ later) #[]

/-- **A frame that the unwinders in front let pass** comes to those behind them. -/
theorem ask_append {front : List Unwinder}
    (h : ∀ unwinder ∈ front, Passes target registers unwinder) (back : List Unwinder) :
    ask target registers (front ++ back) =
      (⟨passingEvents target registers front ++ (ask target registers back).1.events,
        (ask target registers back).1.result⟩,
        front.map (passed target registers) ++ (ask target registers back).2) := by
  induction front with
  | nil => simp [passingEvents]
  | cons unwinder front ih =>
    obtain ⟨hfirst, hfront⟩ := List.forall_mem_cons.mp h
    rw [List.cons_append, ask, List.map_cons, List.cons_append, passed, ih hfront]
    by_cases henabled : unwinder.enabled = true
    · rw [if_pos henabled, if_pos henabled]
      simp [hfirst henabled, passingEvents, henabled, Array.append_assoc]
    · rw [if_neg henabled, if_neg henabled]
      simp [passingEvents, henabled]

/-- An unwinder that is switched on and does not decline has the last word. -/
theorem ask_of_answer (henabled : unwinder.enabled = true)
    (hanswer : (unwinder.unwind target registers).1.result ≠ .ok none) (back : List Unwinder) :
    ask target registers (unwinder :: back) =
      ((unwinder.unwind target registers).1, (unwinder.unwind target registers).2 :: back) := by
  rw [ask, if_pos henabled]
  dsimp only
  split
  next hnone => exact absurd hnone hanswer
  next => rfl

/-- What matters of unwinders that let a frame pass are those that are switched on. -/
theorem forall_passes {unwinders : List Unwinder} :
    (∀ unwinder ∈ unwinders, Passes target registers unwinder) ↔
      ∀ unwinder ∈ unwinders.filter Unwinder.enabled,
        (unwinder.unwind target registers).1.result = .ok none := by
  simp only [List.mem_filter, and_imp]
  rfl

/-- A frame passes all unwinders, or comes to a first one that answers. -/
theorem passes_or_answers (target : Target) (registers : Registers) (unwinders : List Unwinder) :
    (∀ unwinder ∈ unwinders, Passes target registers unwinder) ∨
      ∃ front first back, unwinders = front ++ first :: back ∧
        (∀ unwinder ∈ front, Passes target registers unwinder) ∧
        first.enabled = true ∧ (first.unwind target registers).1.result ≠ .ok none := by
  induction unwinders with
  | nil => exact .inl (List.forall_mem_nil _)
  | cons unwinder later ih =>
    by_cases hpasses : Passes target registers unwinder
    · rcases ih with hall | ⟨front, first, back, rfl, hfront, hfirst⟩
      · exact .inl (List.forall_mem_cons.mpr ⟨hpasses, hall⟩)
      · exact .inr ⟨unwinder :: front, first, back, rfl,
          List.forall_mem_cons.mpr ⟨hpasses, hfront⟩, hfirst⟩
    · exact .inr ⟨[], unwinder, later, rfl, List.forall_mem_nil _, Classical.not_imp.mp hpasses⟩

/-- **A frame that nobody answers**: every unwinder lets it pass. Those that are switched off have
    no part in it: without them or with others in their places the outcome is the same. -/
structure Unanswered (target : Target) (registers : Registers) (roster : Roster) : Prop where
  passes : ∀ unwinder ∈ roster.unwinders, Passes target registers unwinder
  result : (roster.unwind target registers).1.result = .ok none
  after : (roster.unwind target registers).2.unwinders =
    roster.unwinders.map (passed target registers)
  apart : ∀ others : List Unwinder,
    others.filter Unwinder.enabled = roster.unwinders.filter Unwinder.enabled →
      (Roster.unwind target registers ⟨others⟩).1 = (roster.unwind target registers).1

/-- **The unwinder that answers a frame**, be it with a caller or with a fault: those in front of it
    let the frame pass. Those in front that are switched off and all behind it have no part in it:
    they stay as they are, and without them or with others in their places the outcome is the
    same. -/
structure AnsweredBy (target : Target) (registers : Registers) (roster : Roster)
    (front : List Unwinder) (first : Unwinder) (back : List Unwinder) : Prop where
  unwinders : roster.unwinders = front ++ first :: back
  passes : ∀ unwinder ∈ front, Passes target registers unwinder
  enabled : first.enabled = true
  answers : (first.unwind target registers).1.result ≠ .ok none
  result : (roster.unwind target registers).1.result = (first.unwind target registers).1.result
  after : (roster.unwind target registers).2.unwinders =
    front.map (passed target registers) ++ (first.unwind target registers).2 :: back
  apart : ∀ front' back' : List Unwinder,
    front'.filter Unwinder.enabled = front.filter Unwinder.enabled →
      (Roster.unwind target registers ⟨front' ++ first :: back'⟩).1 =
        (roster.unwind target registers).1

theorem unanswered_of_passes (h : ∀ unwinder ∈ roster.unwinders, Passes target registers unwinder) :
    Unanswered target registers roster := by
  have hask : ∀ unwinders : List Unwinder,
      (∀ unwinder ∈ unwinders, Passes target registers unwinder) →
      ask target registers unwinders = (⟨passingEvents target registers unwinders, .ok none⟩,
        unwinders.map (passed target registers)) := by
    intro unwinders hpasses
    have hall := ask_append hpasses []
    simpa [ask, Outcome.ofResult] using hall
  refine ⟨h, congrArg (fun outcome => outcome.1.result) (hask _ h),
    congrArg Prod.snd (hask _ h), fun others hsame => ?_⟩
  have hothers : ∀ unwinder ∈ others, Passes target registers unwinder := by
    rw [forall_passes, hsame]
    exact forall_passes.mp h
  show (ask target registers others).1 = (ask target registers roster.unwinders).1
  rw [hask _ hothers, hask _ h, passingEvents, passingEvents, hsame]

theorem answeredBy_of_passes {front : List Unwinder} {first : Unwinder} {back : List Unwinder}
    (hunwinders : roster.unwinders = front ++ first :: back)
    (hpasses : ∀ unwinder ∈ front, Passes target registers unwinder)
    (henabled : first.enabled = true)
    (hanswers : (first.unwind target registers).1.result ≠ .ok none) :
    AnsweredBy target registers roster front first back := by
  have hask : ∀ front' back' : List Unwinder,
      (∀ unwinder ∈ front', Passes target registers unwinder) →
      ask target registers (front' ++ first :: back') =
        (⟨passingEvents target registers front' ++ (first.unwind target registers).1.events,
          (first.unwind target registers).1.result⟩,
          front'.map (passed target registers) ++ (first.unwind target registers).2 :: back') := by
    intro front' back' hfront'
    rw [ask_append hfront', ask_of_answer henabled hanswers]
  have hroster : ask target registers roster.unwinders = _ :=
    hunwinders ▸ hask front back hpasses
  refine ⟨hunwinders, hpasses, henabled, hanswers,
    congrArg (fun outcome => outcome.1.result) hroster, congrArg Prod.snd hroster,
    fun front' back' hsame => ?_⟩
  have hfront' : ∀ unwinder ∈ front', Passes target registers unwinder := by
    rw [forall_passes, hsame]
    exact forall_passes.mp hpasses
  show (ask target registers (front' ++ first :: back')).1 =
    (ask target registers roster.unwinders).1
  rw [hroster, hask front' back' hfront', passingEvents, passingEvents, hsame]

/-! ## 4. The roster after registrations -/

/-- **The roster after any registrations.** No name stands twice in it; of each name it has the
    unwinder of the latest granted registration, the latest first. A further registration is granted
    if it may replace or its name was not asked for before. One whose name is in the roster is
    refused unless it may replace, and then the roster stays as it is; if it may, the old holder of
    the name goes, the others stay in their order, and the new unwinder comes first. A frame is
    answered by the first unwinder that is switched on and does not decline, be it with a fault, and
    by nobody if there is none; the unwinders that are switched off and those behind the answering
    one have no part in that. -/
theorem latest_granted_first (history : List Enrolment) :
    (ofEnrolments history).names.Nodup ∧
    (ofEnrolments history).unwinders = firstOfEachName (granted history) ∧
    (∀ unwinder replace,
      (∃ after, (ofEnrolments history).register unwinder replace = .ok after) ↔
        Enrolment.Granted history ⟨unwinder, replace⟩) ∧
    (∀ unwinder, unwinder.name ∈ (ofEnrolments history).names →
      (ofEnrolments history).register unwinder false =
        .error (.duplicateUnwinder unwinder.name) ∧
      ofEnrolments (⟨unwinder, false⟩ :: history) = ofEnrolments history ∧
      ∃ front old back, (ofEnrolments history).unwinders = front ++ old :: back ∧
        old.name = unwinder.name ∧ (∀ other ∈ front ++ back, other.name ≠ unwinder.name) ∧
        (ofEnrolments history).register unwinder true = .ok ⟨unwinder :: (front ++ back)⟩) ∧
    (∀ unwinder replace, unwinder.name ∉ (ofEnrolments history).names →
      (ofEnrolments history).register unwinder replace =
        .ok ⟨unwinder :: (ofEnrolments history).unwinders⟩) ∧
    ∀ target registers, Unanswered target registers (ofEnrolments history) ∨
      ∃ front first back, AnsweredBy target registers (ofEnrolments history) front first back := by
  refine ⟨nodup_names history, unwinders_ofEnrolments history, fun unwinder replace => ?_,
    fun unwinder htaken => ?_, fun unwinder replace hnew => register_new hnew replace,
    fun target registers => ?_⟩
  · rw [Enrolment.Granted, ← not_mem_names]
    constructor
    · rintro ⟨after, hafter⟩
      by_contra hrefused
      obtain ⟨hreplace, htaken⟩ := not_or.mp hrefused
      have hfalse : replace = false := Bool.eq_false_iff.mpr hreplace
      rw [hfalse, register_taken (not_not.mp htaken)] at hafter
      cases hafter
    · exact fun hroom => ⟨_, register_of_room hroom⟩
  · have hrefused := register_taken htaken
    obtain ⟨front, old, back, hsplit, hold, hothers⟩ :=
      exists_holder (nodup_names history) htaken
    refine ⟨hrefused, enrol_of_error hrefused, front, old, back, hsplit, hold, hothers, ?_⟩
    exact register_replacing hsplit hold fun other hother =>
      hothers other (List.mem_append_left back hother)
  · rcases passes_or_answers target registers (ofEnrolments history).unwinders with
      hall | ⟨front, first, back, hsplit, hfront, henabled, hanswers⟩
    · exact .inl (unanswered_of_passes hall)
    · exact .inr ⟨front, first, back, answeredBy_of_passes hsplit hfront henabled hanswers⟩

/-! ## 5. A name that is taken over -/

/-- An unwinder with one reply to all frames. -/
def stub (name : String) (enabled : Bool) (reply : Except Fault (Option Caller)) : Unwinder :=
  .custom name enabled fun _ _ => reply

/-- Two names are registered; the first is taken over by an unwinder that is switched off, and the
    second cannot be taken over. -/
def takenOver : List Enrolment :=
  [⟨stub "deep" true (.ok none), false⟩, ⟨stub "flat" false (.ok none), true⟩,
    ⟨stub "deep" true (.error (.noSymbol "__deep")), false⟩, ⟨stub "flat" true (.ok none), false⟩]

/-- The new holder of the first name is in front but is not asked, and knows of no frame; the old
    holder of the second one answers, with a fault, and knows the frame. -/
theorem latest_granted_first_takenOver :
    (ofEnrolments takenOver).unwinders =
        [stub "flat" false (.ok none), stub "deep" true (.error (.noSymbol "__deep"))] ∧
      (ofEnrolments takenOver).register (stub "deep" true (.ok none)) false =
        .error (.duplicateUnwinder "deep") ∧
      ∀ target registers,
        ((ofEnrolments takenOver).unwind target registers).1.result = .error (.noSymbol "__deep") ∧
        ((ofEnrolments takenOver).unwind target registers).2.unwinders =
          [stub "flat" false (.ok none), .other "deep"
            ⟨fun _ => true, fun _ _ => .error (.noSymbol "__deep")⟩ [⟨target, registers⟩]] := by
  obtain ⟨-, hlatest, -, htaken, -, hanswer⟩ := latest_granted_first takenOver
  have hunwinders : (ofEnrolments takenOver).unwinders =
      [stub "flat" false (.ok none), stub "deep" true (.error (.noSymbol "__deep"))] :=
    hlatest.trans rfl
  have hmem : (stub "deep" true (.ok none)).name ∈ (ofEnrolments takenOver).names := by
    rw [names, hunwinders]
    decide
  refine ⟨hunwinders, (htaken _ hmem).1, fun target registers => ?_⟩
  rcases hanswer target registers with hnone | ⟨front, first, back, hfirst⟩
  · have hpasses := hnone.passes
    rw [hunwinders] at hpasses
    cases hpasses _ (List.mem_cons_of_mem _ List.mem_cons_self) rfl
  · have hsplit := hunwinders.symm.trans hfirst.unwinders
    match front, hsplit with
    | [], h =>
      cases h
      exact absurd hfirst.enabled Bool.false_ne_true
    | [_], h =>
      cases h
      exact ⟨hfirst.result, hfirst.after⟩
    | _ :: _ :: _, h => simp at h

end Roster

end KernelProbe
