import KernelProbe.Proofs.Paging.Agreement
import KernelProbe.Proofs.Session.PhysicalMode

/-!
# What a dump depends on

Two kernels may be as different as they like: if both let the dump enter physical mode, their paging
registers name the same root table, and in physical mode they hold the same in the tables that the
walk reads, then the dump is the same, text or fault. The paging mode and the address-space number
play no part, nor does memory as it is seen in normal mode, nor any page that is not a table, nor
symbols, types and other registers, nor whether physical mode can be left again.

* `Satp.root_of_low_bits` -- the root is named by the low 44 bits of the paging register;
* `Session.dump_noninterference` -- kernels that agree on the tables give the same dump.
-/

namespace KernelProbe

theorem Satp.root_of_low_bits {satp other : Satp}
    (h : other.bits.toNat % 2 ^ 44 = satp.bits.toNat % 2 ^ 44) : other.root = satp.root := by
  have hnumber : other.pageNumber = satp.pageNumber := by
    refine BitVec.eq_of_toNat_eq ?_
    unfold pageNumber
    rw [BitVec.toNat_setWidth, BitVec.toNat_setWidth]
    exact h
  unfold root
  rw [hnumber]

namespace Session

/-- **A dump depends on the tables that its walk reads, and on nothing else of the kernel.** Two
    kernels that are both let into physical mode, whose paging registers agree on the bits of the
    root's page number, and which hold the same bytes in the page of every table that is read, or
    both do not let it be read, give the same text or the same fault, asked for by name or by a line
    of text. -/
theorem dump_noninterference {σ σ' : Type} [Debuggee σ] [Debuggee σ'] {session session' : Session}
    {s inside : σ} {s' inside' : σ'} {bits bits' : UInt64}
    (hregister : (Debuggee.view s).register session.config.satpRegister = .ok bits)
    (hregister' : (Debuggee.view s').register session'.config.satpRegister = .ok bits')
    (hroot : bits'.toNat % 2 ^ 44 = bits.toNat % 2 ^ 44)
    (henter : Debuggee.setPhysical true s = (.ok (), inside))
    (henter' : Debuggee.setPhysical true s' = (.ok (), inside'))
    (htables : ∀ address, Walk.Reads (Debuggee.view inside) (Satp.mk bits).root address →
      (Debuggee.view inside').memory? address.bits pageSize =
        (Debuggee.view inside).memory? address.bits pageSize) :
    (session'.dumpPages s').1.result = (session.dumpPages s).1.result ∧
      ∀ line, Command.parse line = .pages →
        (session'.execute s' line).1.result = (session.execute s line).1.result := by
  have hsame : (session'.dumpPages s').1.result = (session.dumpPages s).1.result := by
    have hlines := Range.lines_of_agree htables
    have hroots : (Satp.mk bits').root = (Satp.mk bits).root := Satp.root_of_low_bits hroot
    unfold Session.dumpPages
    rw [dumpPages_entered hregister henter, dumpPages_entered hregister' henter']
    dsimp only
    rw [hroots, hlines]
  refine ⟨hsame, fun line hpages => ?_⟩
  rw [execute_pages hpages, execute_pages hpages]
  exact hsame

end Session

/-! ## Two kernels with one table -/

/-- A kernel by what is seen of it in each mode. It can always enter physical mode; `left` is its
    answer when it is asked to leave it. -/
structure TwoModes where
  normal : Target
  physical : Target
  left : Except Fault Unit
  inPhysical : Bool

instance : Debuggee TwoModes where
  view kernel := if kernel.inPhysical then kernel.physical else kernel.normal
  setPhysical physical kernel :=
    if physical then (.ok (), { kernel with inPhysical := true })
    else match kernel.left with
      | .ok () => (.ok (), { kernel with inPhysical := false })
      | .error fault => (.error fault, kernel)

/-- A memory with a table at 0x1000, whose only valid entry is a leaf for the page at 0x5000; every
    word of every other page is `other`. -/
def Target.oneLeaf (other : UInt64) : Target :=
  .ofTables fun address index =>
    if address = 0x1000 then (if index = 0 then 0x140F else 0) else other

theorem Walk.reached_oneLeaf {other : UInt64} {level : Nat} {address : PAddr}
    (h : Reached (.oneLeaf other) ⟨0x1000⟩ level address) : address = ⟨0x1000⟩ := by
  induction h with
  | root => rfl
  | @pointer level address inner table _ hread index hkind ih =>
    obtain rfl := ih
    obtain ⟨table', hread', hentries⟩ := read_ofTables
      (fun address index =>
        if address = 0x1000 then (if index = 0 then 0x140F else 0) else other) ⟨0x1000⟩
    cases hread.symm.trans hread'
    rw [hentries index, if_pos rfl] at hkind
    split at hkind
    · cases hkind
    · cases hkind

/-- A kernel in Sv39 mode of whose normal memory nothing can be read. -/
def quietKernel : TwoModes where
  normal := { Target.blank with register? := fun _ => some 0x8000000000000001 }
  physical := .oneLeaf 0
  left := .ok ()
  inPhysical := false

/-- A kernel in another mode, with an address-space number, whose memory is full of pointers to
    tables, and which stays in physical mode. -/
def noisyKernel : TwoModes where
  normal := { Target.oneLeaf 0x2001 with register? := fun _ => some 0xF123400000000001 }
  physical := .oneLeaf 0x2001
  left := .error (.memoryUnavailable 0 0)
  inPhysical := false

/-- The two kernels differ in everything but their one table, and are dumped alike. -/
theorem Session.dump_noninterference_oneLeaf :
    (Debuggee.view quietKernel).register "satp" = .ok 0x8000000000000001 ∧
      (Debuggee.view noisyKernel).register "satp" = .ok 0xF123400000000001 ∧
      (∀ address, Walk.Reads quietKernel.physical ⟨0x1000⟩ address →
        noisyKernel.physical.memory? address.bits pageSize =
          quietKernel.physical.memory? address.bits pageSize) ∧
      Command.parse "lab-page" = .pages ∧
      ((start {}).execute noisyKernel "lab-page").1.result =
        ((start {}).execute quietKernel "lab-page").1.result := by
  have hregister : (Debuggee.view quietKernel).register (start {}).config.satpRegister =
      .ok 0x8000000000000001 := rfl
  have hregister' : (Debuggee.view noisyKernel).register (start {}).config.satpRegister =
      .ok 0xF123400000000001 := rfl
  have henter : Debuggee.setPhysical true quietKernel =
      (.ok (), { quietKernel with inPhysical := true }) := rfl
  have henter' : Debuggee.setPhysical true noisyKernel =
      (.ok (), { noisyKernel with inPhysical := true }) := rfl
  have htables : ∀ address, Walk.Reads quietKernel.physical ⟨0x1000⟩ address →
      noisyKernel.physical.memory? address.bits pageSize =
        quietKernel.physical.memory? address.bits pageSize := by
    intro address hreads
    obtain ⟨level, hreached⟩ := hreads.reached
    obtain rfl := Walk.reached_oneLeaf hreached
    rfl
  have hparse : Command.parse "lab-page" = .pages := by decide +kernel
  have hdump := dump_noninterference hregister hregister' (by decide) henter henter' htables
  exact ⟨hregister, hregister', htables, hparse, hdump.2 "lab-page" hparse⟩

end KernelProbe
