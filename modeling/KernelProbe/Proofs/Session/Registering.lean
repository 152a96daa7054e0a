import KernelProbe.Proofs.Intrusive.Registrations
import KernelProbe.Session.Basic

/-!
# Registering from the command line

The answer of a registration names the address of the container, and for a pointer that address is
read once more after the catalogue has changed. The second reading finds what the first one found,
so nothing fails behind the change: a registration is carried out whole, with the address that its
text names, or not at all. No other command changes the session, whatever becomes of the kernel
between the lines.

* `Value.meant` -- the address that the text of an answer names;
* `Session.registerContainer_cases` -- what can come of a registration;
* `Session.execute_session`, `Session.afterLines_registering` -- one line, and a run of lines;
* `Session.registerContainer_atomic` -- registrations are carried out whole or not at all.
-/

namespace KernelProbe

open Text (hex)

/-! ## 1. The second reading -/

/-- The address of the object that a value stands for, read without regard to what is there. -/
def Value.meant (target : Target) (value : Value) : Except Fault UInt64 :=
  match value.layout.kind with
  | .pointer _ => value.word target
  | _ => .ok value.address

/-- **The second reading** finds the object that the first one found. -/
theorem Means.meant {target : Target} {value object : Value} (h : Means target value object) :
    value.meant target = .ok object.address := by
  unfold Value.meant
  cases h with
  | itself hkind =>
    split
    next pointee hpointer => exact absurd hpointer (hkind pointee)
    next => rfl
  | pointee hkind hword =>
    rw [hkind]
    exact hword

theorem Request.Grants.meant {request : Request} {address : UInt64} {container : Container}
    (h : request.Grants address container) : request.value.meant request.target = .ok address := by
  obtain ⟨object, hmeans, rfl, -⟩ := h.object
  exact hmeans.meant

namespace Session

/-- The text that answers a registration. -/
def registeredText (value : Value) (owner : String) (address : UInt64) : String :=
  hex address ++ ": " ++ value.type ++ " of " ++ owner

/-! ## 2. One registration -/

variable {session : Session} {target : Target} {expression owner member : String}

/-- The request of a registration by name. -/
def request (session : Session) (target : Target) (value : Value) (owner member : String) :
    Request :=
  ⟨target, session.config, value, owner, member⟩

theorem registerContainer_of_evaluate_error {fault : Fault}
    (h : target.evaluate expression = .error fault) :
    session.registerContainer target expression owner member =
      (.ofResult (.error fault), session) := by
  unfold registerContainer
  rw [h]

theorem registerContainer_of_error {value : Value} {fault : Fault}
    (hvalue : target.evaluate expression = .ok value)
    (hanswer : session.catalogue.answer (session.request target value owner member) =
      .error fault) :
    session.registerContainer target expression owner member =
      (.ofResult (.error fault), session) := by
  have hregister : session.catalogue.register target session.config value owner member =
      .error fault := hanswer
  unfold registerContainer
  rw [hvalue]
  dsimp only
  rw [hregister]

theorem registerContainer_of_grants {value : Value} {address : UInt64} {container : Container}
    (hvalue : target.evaluate expression = .ok value)
    (hgrants : (session.request target value owner member).Grants address container) :
    ∃ events, session.registerContainer target expression owner member =
      (⟨events, .ok (registeredText value owner address)⟩,
        { session with catalogue := session.catalogue.put address container }) := by
  have hregister : session.catalogue.register target session.config value owner member = .ok _ :=
    Catalogue.answer_of_grants hgrants
  have hmeant : value.meant target = .ok address := hgrants.meant
  unfold registerContainer
  rw [hvalue]
  dsimp only
  rw [hregister]
  refine ⟨_, Prod.ext (congrArg (Outcome.mk _) ?_) rfl⟩
  show (value.meant target).map _ = _
  rw [hmeant]
  rfl

/-- **What can come of a registration**: a fault and the session as it was, or the text with the
    address of the one new record. -/
theorem registerContainer_cases (session : Session) (target : Target)
    (expression owner member : String) :
    (∃ fault, session.registerContainer target expression owner member =
      (.ofResult (.error fault), session)) ∨
    ∃ value address container events, target.evaluate expression = .ok value ∧
      (session.request target value owner member).Grants address container ∧
      session.registerContainer target expression owner member =
        (⟨events, .ok (registeredText value owner address)⟩,
          { session with catalogue := session.catalogue.put address container }) := by
  cases hvalue : target.evaluate expression with
  | error fault => exact .inl ⟨fault, registerContainer_of_evaluate_error hvalue⟩
  | ok value =>
    cases hanswer : session.catalogue.answer (session.request target value owner member) with
    | error fault => exact .inl ⟨fault, registerContainer_of_error hvalue hanswer⟩
    | ok registration =>
      have hgrants := (Catalogue.answer_eq_ok.mp hanswer).1
      obtain ⟨events, hdone⟩ := registerContainer_of_grants hvalue hgrants
      exact .inr ⟨value, _, _, events, rfl, hgrants, hdone⟩

/-- A registration succeeds if its expression has a value and the request for it is in order. -/
theorem registerContainer_isOk :
    (session.registerContainer target expression owner member).1.result.isOk = true ↔
      ∃ value address container, target.evaluate expression = .ok value ∧
        (session.request target value owner member).Grants address container := by
  constructor
  · intro h
    rcases session.registerContainer_cases target expression owner member with
      ⟨fault, hfails⟩ | ⟨value, address, container, events, hvalue, hgrants, hdone⟩
    · rw [hfails] at h
      cases h
    · exact ⟨value, address, container, hvalue, hgrants⟩
  · intro ⟨value, address, container, hvalue, hgrants⟩
    obtain ⟨events, hdone⟩ := registerContainer_of_grants hvalue hgrants
    rw [hdone]
    rfl

/-! ## 3. Lines of text -/

variable {σ : Type} [Debuggee σ] {kernel : σ} {line : String}

/-- The line asks for a registration, and gets it. -/
def registers (session : Session) (kernel : σ) (line : String) : Bool :=
  match Command.parse line with
  | .container expression owner member =>
    (session.registerContainer (Debuggee.view kernel) expression owner member).1.result.isOk
  | _ => false

theorem registers_iff : session.registers kernel line = true ↔
    ∃ expression owner member text, Command.parse line = .container expression owner member ∧
      (session.execute kernel line).1.result = .ok text := by
  unfold registers execute
  cases Command.parse line with
  | container expression owner member =>
    dsimp only
    cases hresult : (session.registerContainer (Debuggee.view kernel) expression owner
        member).1.result with
    | error fault =>
      constructor
      · intro h
        cases h
      · intro ⟨_, _, _, _, _, h⟩
        cases h
    | ok text => exact ⟨fun _ => ⟨_, _, _, text, rfl, rfl⟩, fun _ => rfl⟩
  | _ =>
    constructor
    · intro h
      cases h
    · intro ⟨_, _, _, _, h, _⟩
      cases h

/-- Whether a line registers something is up to the kernel and the settings, not to what has been
    registered before. -/
theorem registers_of_config {other : Session} (h : other.config = session.config) :
    other.registers kernel line = session.registers kernel line := by
  unfold registers
  cases Command.parse line with
  | container expression owner member =>
    rw [Bool.eq_iff_iff, registerContainer_isOk, registerContainer_isOk]
    unfold request
    rw [h]
  | _ => rfl

/-- **One line**: the session stays as it is, unless a registration is asked for and succeeds. -/
theorem execute_session (h : session.registers kernel line = false) :
    (session.execute kernel line).2.1 = session := by
  unfold registers at h
  unfold execute
  cases hcommand : Command.parse line with
  | container expression owner member =>
    rw [hcommand] at h
    rcases session.registerContainer_cases (Debuggee.view kernel) expression owner member with
      ⟨fault, hfails⟩ | ⟨value, address, container, events, _, _, hdone⟩
    · dsimp only
      rw [hfails]
    · dsimp only at h
      rw [hdone] at h
      cases h
  | _ => rfl

theorem execute_config (session : Session) (kernel : σ) (line : String) :
    (session.execute kernel line).2.1.config = session.config := by
  unfold execute
  cases Command.parse line with
  | container expression owner member =>
    rcases session.registerContainer_cases (Debuggee.view kernel) expression owner member with
      ⟨fault, hfails⟩ | ⟨value, address, container, events, _, _, hdone⟩
    · dsimp only
      rw [hfails]
    · dsimp only
      rw [hdone]
  | _ => rfl

/-- The session after lines of text, each given to the kernel as it is at that moment. -/
def afterLines (session : Session) : List (σ × String) → Session
  | [] => session
  | (kernel, line) :: later => (session.execute kernel line).2.1.afterLines later

/-- The lines that register something. -/
def registering (session : Session) (lines : List (σ × String)) : List (σ × String) :=
  lines.filter fun (kernel, line) => session.registers kernel line

theorem registering_of_config {other : Session} (h : other.config = session.config)
    (lines : List (σ × String)) : other.registering lines = session.registering lines :=
  List.filter_congr fun _ _ => registers_of_config h

/-- **A run of lines** leaves the session that the lines leave that register something. -/
theorem afterLines_registering (session : Session) (lines : List (σ × String)) :
    session.afterLines lines = session.afterLines (session.registering lines) := by
  induction lines generalizing session with
  | nil => rfl
  | cons given later ih =>
    obtain ⟨kernel, line⟩ := given
    -- The later lines are tested in another session, but with the same settings.
    have hlater := ih (session.execute kernel line).2.1
    rw [registering_of_config (execute_config session kernel line)] at hlater
    unfold registering
    rw [afterLines, List.filter_cons]
    by_cases hregisters : session.registers kernel line = true
    · rw [if_pos hregisters]
      exact hlater
    · rw [if_neg hregisters, hlater, execute_session (Bool.not_eq_true _ ▸ hregisters)]
      rfl

/-! ## 4. The answer and the catalogue -/

/-- The session with a new record, and with nothing else changed. -/
structure Gained (session next : Session) (address : UInt64) (container : Container) : Prop where
  stored : next.catalogue.find? address = some container
  others : ∀ other, other ≠ address →
    next.catalogue.find? other = session.catalogue.find? other
  rest : next = { session with catalogue := next.catalogue }

theorem gained_put (session : Session) (address : UInt64) (container : Container) :
    session.Gained { session with catalogue := session.catalogue.put address container }
      address container where
  stored := Catalogue.find?_put _ _ _
  others _ hne := Catalogue.find?_put_of_ne hne
  rest := rfl

/-- **A registration is carried out whole or not at all.** If its answer is a fault, the session is
    as it was. If it is a text, the text names an address, the type of the value and the owner; at
    that address, and nowhere else, there is a new record, the one that the request for the value
    calls for; and if the value is a pointer, the address is the one that it holds. It is a text if
    and only if the expression has a value and the request for it is in order: once the catalogue
    has taken the registration, reading the address of the value again cannot fail or find another
    address. Of lines of text only those change the session that ask for a registration and get it,
    and any run of lines leaves the session that those among them leave, whatever kernel each of
    them meets. -/
theorem registerContainer_atomic (session : Session) :
    (∀ target expression owner member fault,
      (session.registerContainer target expression owner member).1.result = .error fault →
      (session.registerContainer target expression owner member).2 = session) ∧
    (∀ target expression owner member text,
      (session.registerContainer target expression owner member).1.result = .ok text →
      ∃ value address container, target.evaluate expression = .ok value ∧
        text = hex address ++ ": " ++ value.type ++ " of " ++ owner ∧
        (session.request target value owner member).Grants address container ∧
        session.Gained (session.registerContainer target expression owner member).2
          address container ∧
        (∀ pointee, value.layout.kind = .pointer pointee → value.word target = .ok address) ∧
        ((∀ pointee, value.layout.kind ≠ .pointer pointee) → value.address = address)) ∧
    (∀ target expression owner member,
      (session.registerContainer target expression owner member).1.result.isOk = true ↔
        ∃ value address container, target.evaluate expression = .ok value ∧
          (session.request target value owner member).Grants address container) ∧
    (∀ target expression owner member value registration,
      target.evaluate expression = .ok value →
      session.catalogue.register target session.config value owner member = .ok registration →
      value.meant target = .ok registration.address ∧
        (session.registerContainer target expression owner member).1.result =
          .ok (registeredText value owner registration.address) ∧
        (session.registerContainer target expression owner member).2 =
          { session with catalogue := registration.catalogue }) ∧
    ∀ {σ : Type} [Debuggee σ],
      (∀ (kernel : σ) line, (session.execute kernel line).2.1 ≠ session →
        ∃ expression owner member text, Command.parse line = .container expression owner member ∧
          (session.execute kernel line).1.result = .ok text) ∧
      ∀ lines : List (σ × String),
        session.afterLines lines = session.afterLines (session.registering lines) := by
  refine ⟨?_, ?_, fun _ _ _ _ => registerContainer_isOk, ?_, ?_⟩
  · intro target expression owner member fault hfault
    rcases session.registerContainer_cases target expression owner member with
      ⟨_, hfails⟩ | ⟨_, _, _, _, _, _, hdone⟩
    · rw [hfails]
    · rw [hdone] at hfault
      cases hfault
  · intro target expression owner member text htext
    rcases session.registerContainer_cases target expression owner member with
      ⟨_, hfails⟩ | ⟨value, address, container, events, hvalue, hgrants, hdone⟩
    · rw [hfails] at htext
      cases htext
    · rw [hdone] at htext ⊢
      cases htext
      have hmeant : value.meant target = .ok address := hgrants.meant
      refine ⟨value, address, container, hvalue, rfl, hgrants,
        session.gained_put address container, fun pointee hkind => ?_, fun hkind => ?_⟩
      · unfold Value.meant at hmeant
        rwa [hkind] at hmeant
      · unfold Value.meant at hmeant
        split at hmeant
        next pointee hpointer => exact absurd hpointer (hkind pointee)
        next => exact Except.ok.inj hmeant
  · intro target expression owner member value registration hvalue hregister
    obtain ⟨hgrants, -, hcatalogue⟩ := Catalogue.answer_eq_ok.mp
      (show session.catalogue.answer (session.request target value owner member) = _ from hregister)
    obtain ⟨events, hdone⟩ := registerContainer_of_grants hvalue hgrants
    rw [hdone, hcatalogue]
    exact ⟨hgrants.meant, rfl, rfl⟩
  · intro σ _
    refine ⟨fun kernel line hchanged => ?_, afterLines_registering session⟩
    by_cases hregisters : session.registers kernel line = true
    · exact registers_iff.mp hregisters
    · exact absurd (execute_session (Bool.not_eq_true _ ▸ hregisters)) hchanged

/-! ## 5. A kernel with a named pointer -/

/-- The teaching kernel with a symbol for a pointer to the head of a list at 0x1000. -/
def namedKernel : Image :=
  { Image.kernel with
    symbols := [("runnable", ⟨0x2000, "struct linked_list_node *"⟩)]
    memory := ⟨[⟨0x2000, (Memory.wordBytes 0x1000).toArray⟩]⟩ }

/-- The lines of a user who names a wrong member, then the right one, then forgets the member. -/
def mistypedLines : List (Image × String) :=
  [(namedKernel, "lab-container runnable struct proc pid"),
    (namedKernel, "lab-container runnable struct proc list"),
    (namedKernel, "lab-container runnable proc")]

/-- One of the lines registers the list, under the address that the pointer holds. -/
theorem registerContainer_atomic_mistyped :
    ((start {}).registerContainer namedKernel.view "runnable" "struct proc" "list").1.result =
      .ok "0x1000: struct linked_list_node * of struct proc" ∧
    (∃ container, (start {}).Gained
      ((start {}).registerContainer namedKernel.view "runnable" "struct proc" "list").2
      0x1000 container) ∧
    (start {}).afterLines mistypedLines =
      (start {}).afterLines [(namedKernel, "lab-container runnable struct proc list")] := by
  obtain ⟨-, hok, -, -, hlines⟩ := registerContainer_atomic (start {})
  have hresult : ((start {}).registerContainer namedKernel.view "runnable" "struct proc"
      "list").1.result = .ok "0x1000: struct linked_list_node * of struct proc" := by rfl
  obtain ⟨value, address, container, hvalue, -, -, hgained, hpointer, -⟩ :=
    hok _ _ _ _ _ hresult
  have hnamed : namedKernel.view.evaluate "runnable" =
      .ok ⟨0x2000, kernelLayout "struct linked_list_node *"⟩ := by rfl
  cases hnamed.symm.trans hvalue
  have hword : Value.word namedKernel.view ⟨0x2000, kernelLayout "struct linked_list_node *"⟩ =
      .ok 0x1000 := by rfl
  cases hword.symm.trans (hpointer "struct linked_list_node" rfl)
  have hone : (start {}).registering mistypedLines =
      [(namedKernel, "lab-container runnable struct proc list")] := by
    have hpid : (start {}).registers namedKernel "lab-container runnable struct proc pid" =
        false := by decide +kernel
    have hlist : (start {}).registers namedKernel "lab-container runnable struct proc list" =
        true := by decide +kernel
    have hproc : (start {}).registers namedKernel "lab-container runnable proc" =
        false := by decide +kernel
    simp [registering, mistypedLines, hpid, hlist, hproc]
  refine ⟨hresult, ⟨container, hgained⟩, ?_⟩
  rw [← hone]
  exact (hlines (σ := Image)).2 mistypedLines

end Session

end KernelProbe
