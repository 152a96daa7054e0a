import KernelProbe.Target
import KernelProbe.Proofs.Intrusive.Places

/-!
# Debuggers as hosts

A debugger hosts the library by answering its look-ups. A look-up that fails does so with a fault,
and a host could choose that fault at will. It is assumed that none does: what fails is told by the
fault of its own kind, a symbol, a type or a register by its name, and memory by the first address
and the length that were asked for. Hosts of which this is so are the ones that a `Target` stands
for, and nothing else is assumed of them. What a host tells may change from one moment to the next,
and then it is another target.

* `Host` -- look-ups with faults of the host's choice;
* `Host.NamesMissing` -- the assumption on hosts;
* `Host.namesMissing_iff` -- under it a host is told by the target that is seen of it.
-/

namespace KernelProbe

/-! ## 1. Faults of look-ups -/

section Demand

variable {α : Type} {fault : Fault}

/-- An answer or one certain fault: of the fault no more need be kept than that it is there. -/
theorem demand_toOption {answer : Except Fault α} (h : ∀ met, answer = .error met → met = fault) :
    demand answer.toOption fault = answer := by
  cases answer with
  | ok a => rfl
  | error met => exact congrArg Except.error (h met rfl).symm

theorem toOption_demand (answer : Option α) : (demand answer fault).toOption = answer := by
  cases answer <;> rfl

end Demand

/-! ## 2. Hosts -/

/-- A debugger as it answers the look-ups of the library at one moment. -/
structure Host where
  register : String → Except Fault UInt64
  memory : UInt64 → (length : Nat) → Except Fault (Vector UInt8 length)
  symbol : String → Except Fault Symbol
  layout : String → Except Fault Layout

namespace Host

/-- **The assumption on hosts**: a look-up that fails says what is missing, and nothing else. -/
structure NamesMissing (host : Host) : Prop where
  register : ∀ name fault, host.register name = .error fault → fault = .registerUnavailable name
  memory : ∀ address length fault, host.memory address length = .error fault →
    fault = .memoryUnavailable address length
  symbol : ∀ name fault, host.symbol name = .error fault → fault = .noSymbol name
  layout : ∀ name fault, host.layout name = .error fault → fault = .noType name

/-- What is seen of a host: the answers, and where there is none. -/
def view (host : Host) : Target where
  register? name := (host.register name).toOption
  memory? address length := (host.memory address length).toOption
  symbol? name := (host.symbol name).toOption
  layout? name := (host.layout name).toOption

/-- The host that answers as the library asks a target. -/
def ofTarget (target : Target) : Host where
  register := target.register
  memory := target.memory
  symbol := target.symbol
  layout := target.layout

variable {host : Host}

/-- A target is all that is seen of its host. -/
theorem view_ofTarget (target : Target) : (ofTarget target).view = target := by
  obtain ⟨register, memory, symbol, layout⟩ := target
  unfold view ofTarget Target.register Registers.read Target.memory Target.symbol Target.layout
  simp only [toOption_demand]

theorem namesMissing_ofTarget (target : Target) : (ofTarget target).NamesMissing where
  register _ _ h := (demand_eq_error.mp h).2
  memory _ _ _ h := (demand_eq_error.mp h).2
  symbol _ _ h := (demand_eq_error.mp h).2
  layout _ _ h := (demand_eq_error.mp h).2

/-- **A host that names what is missing is told by what is seen of it**, with all its faults, and no
    other host is. -/
theorem namesMissing_iff : host.NamesMissing ↔ ofTarget host.view = host := by
  refine ⟨fun h => ?_, fun h => h ▸ namesMissing_ofTarget host.view⟩
  have hregister : host.view.register = host.register :=
    funext fun name => demand_toOption (h.register name)
  have hmemory : host.view.memory = host.memory :=
    funext fun address => funext fun length => demand_toOption (h.memory address length)
  have hsymbol : host.view.symbol = host.symbol :=
    funext fun name => demand_toOption (h.symbol name)
  have hlayout : host.view.layout = host.layout :=
    funext fun name => demand_toOption (h.layout name)
  rw [ofTarget, hregister, hmemory, hsymbol, hlayout]

end Host

end KernelProbe
