import KernelProbe.Proofs.Intrusive.Places
import KernelProbe.Proofs.Paging.Magnitudes
import KernelProbe.Proofs.Paging.Pieces
import KernelProbe.Proofs.Session.PhysicalMode
import KernelProbe.Proofs.Text.Hexadecimal

/-!
# Reading a page dump

The text of a page dump tells all about the ranges that it shows. A word ends where a dash, a blank
or a bracket follows, which are no digits; the last physical address follows from the rest; what
may be done with a range is spelled out, except that it is mapped, which goes without saying. No
line has a line feed in it, so the lines can be told from each other, however many there are.

* `Flags.IsPermission` -- the permissions of what is mapped;
* `Range.text_injective` -- a line shows one range;
* `Range.dump`, `Range.map_text_of_dump` -- the lines of ranges, and their text;
* `Joining.isPermission_of_stage` -- the permissions of the ranges of a walk;
* `Range.lines_eq_ok`, `dumpPages_eq_ok` -- what a page dump shows;
* `Range.dump_unambiguous` -- ranges that are shown alike are the same.
-/

namespace KernelProbe

open Text (hex IsHexDigit)

/-! ## 1. Permissions -/

namespace Flags

/-- **A permission of what is mapped**: the flag V, and no other flags than R, W, X and U beside
    it. -/
structure IsPermission (flags : Flags) : Prop where
  valid : flags.valid = true
  permission : flags.permission = flags

variable {flags other : Flags}

theorem isPermission_permission (h : flags.valid = true) : flags.permission.IsPermission := by
  refine ⟨?_, flags.permission_permission⟩
  show (flags.bits &&& 0x1F).getLsbD 0 = true
  rw [BitVec.getLsbD_and, show flags.bits.getLsbD 0 = true from h]
  rfl

/-- The flags beyond V, R, W, X and U are not set in a permission. -/
theorem IsPermission.getLsbD_eq_false (h : flags.IsPermission) {bit : Nat} (hlt : bit < flagBits)
    (hge : 5 ≤ bit) : flags.bits.getLsbD bit = false := by
  have hmask : ∀ bit < flagBits, 5 ≤ bit → (0x1F : BitVec flagBits).getLsbD bit = false := by
    decide
  have hbits : flags.bits &&& 0x1F = flags.bits := congrArg Flags.bits h.permission
  rw [← hbits, BitVec.getLsbD_and, hmask bit hlt hge, Bool.and_false]

/-- Two marks tell whether something holds. -/
theorem eq_of_mark {b b' : Bool} {c d : Char} (hne : c ≠ d)
    (h : (if b then c else d) = if b' then c else d) : b = b' := by
  cases b with
  | true =>
    cases b' with
    | true => rfl
    | false => exact absurd h hne
  | false =>
    cases b' with
    | true => exact absurd h.symm hne
    | false => rfl

/-- **What is shown of a permission tells it from all others.** -/
theorem IsPermission.eq_of_privilege (h : flags.IsPermission) (hother : other.IsPermission)
    (hsame : flags.privilege.toList = other.privilege.toList) : flags = other := by
  rw [privilege, privilege, String.toList_ofList, String.toList_ofList] at hsame
  simp only [List.cons.injEq, true_and, and_true] at hsame
  obtain ⟨huser, hexecutable, hwritable, hreadable⟩ := hsame
  have hbits : ∀ bit < flagBits, flags.bits.getLsbD bit = other.bits.getLsbD bit := by
    intro bit hlt
    match bit with
    | 0 => exact h.valid.trans hother.valid.symm
    | 1 => exact eq_of_mark (by decide) hreadable
    | 2 => exact eq_of_mark (by decide) hwritable
    | 3 => exact eq_of_mark (by decide) hexecutable
    | 4 => exact eq_of_mark (by decide) huser
    | bit + 5 =>
      rw [h.getLsbD_eq_false hlt (Nat.le_add_left 5 bit),
        hother.getLsbD_eq_false hlt (Nat.le_add_left 5 bit)]
  exact congrArg Flags.mk (BitVec.eq_of_getLsbD_eq hbits)

theorem newline_not_mem_privilege (flags : Flags) : '\n' ∉ flags.privilege.toList := by
  rw [privilege, String.toList_ofList]
  cases flags.user <;> cases flags.executable <;> cases flags.writable <;> cases flags.readable <;>
    decide

end Flags

/-! ## 2. Lines -/

namespace Range

variable {range other : Range} {ranges others : List Range}

/-- The characters of a line. -/
theorem toList_text (range : Range) : range.text.toList =
    (hex range.start.bits).toList ++ '-' ::
      ((hex range.last.bits).toList ++ ' ' :: '=' :: '>' :: ' ' ::
        ((hex range.physical.bits).toList ++ '-' ::
          ((hex range.physicalLast.bits).toList ++ ' ' :: '(' ::
            (range.permission.privilege.toList ++ [')'])))) := by
  simp only [text, String.toList_append, List.append_assoc]
  rfl

/-- **A line shows one range.** -/
theorem text_injective (h : range.permission.IsPermission) (hother : other.permission.IsPermission)
    (hsame : range.text.toList = other.text.toList) : range = other := by
  have hdash : ¬ IsHexDigit '-' := by decide
  have hblank : ¬ IsHexDigit ' ' := by decide
  rw [toList_text, toList_text] at hsame
  obtain ⟨hstart, hsame⟩ := Text.hex_append_inj hdash hdash hsame
  obtain ⟨hlast, hsame⟩ := Text.hex_append_inj hblank hblank (List.cons.inj hsame).2
  simp only [List.cons.injEq, true_and] at hsame
  obtain ⟨hphysical, hsame⟩ := Text.hex_append_inj hdash hdash hsame
  obtain ⟨-, hsame⟩ := Text.hex_append_inj hblank hblank (List.cons.inj hsame).2
  simp only [List.cons.injEq, true_and] at hsame
  have hpermission := h.eq_of_privilege hother (List.append_cancel_right hsame)
  obtain ⟨⟨start⟩, ⟨last⟩, ⟨physical⟩, permission⟩ := range
  cases hstart
  cases hlast
  cases hphysical
  cases hpermission
  rfl

theorem newline_not_mem_text (range : Range) : '\n' ∉ range.text.toList := by
  have hword : ∀ word, '\n' ∉ (hex word).toList := fun word hmem => by
    rcases Text.mem_hex hmem with h | h
    · exact absurd h (by decide)
    · exact absurd h (by decide)
  have hprivilege := range.permission.newline_not_mem_privilege
  simp only [toList_text, List.mem_append, List.mem_cons, hword, hprivilege]
  decide

theorem map_text_injective (h : ∀ range ∈ ranges, range.permission.IsPermission)
    (hothers : ∀ range ∈ others, range.permission.IsPermission)
    (hsame : (ranges.map fun range => range.text.toList) =
      others.map fun range => range.text.toList) : ranges = others := by
  induction ranges generalizing others with
  | nil => exact (List.map_eq_nil_iff.mp hsame.symm).symm
  | cons range ranges ih =>
    cases others with
    | nil => cases hsame
    | cons other others =>
      rw [List.forall_mem_cons] at h hothers
      obtain ⟨hfirst, hrest⟩ := List.cons.inj hsame
      rw [text_injective h.1 hothers.1 hfirst, ih h.2 hothers.2 hrest]

/-! ## 3. Dumps -/

/-- **The text that shows ranges**: a line for each of them. -/
def dump (ranges : List Range) : String :=
  "\n".intercalate (ranges.map text)

/-- Where there is a range, the lines can be told from each other. -/
theorem splitOn_dump (h : ranges ≠ []) :
    (dump ranges).toList.splitOn '\n' = ranges.map fun range => range.text.toList := by
  rw [dump, String.toList_intercalate, List.map_map]
  refine List.splitOn_intercalate '\n' (fun line hline => ?_) (by simpa using h)
  obtain ⟨range, -, rfl⟩ := List.mem_map.mp hline
  exact range.newline_not_mem_text

theorem dump_eq_empty : dump ranges = "" ↔ ranges = [] := by
  refine ⟨fun h => Classical.byContradiction fun hne => ?_, fun h => by rw [h]; rfl⟩
  have hlines := splitOn_dump hne
  rw [h] at hlines
  -- The only line of a text without characters has none, but a line begins with a word.
  have hempty : ([] : List Char) ∈ ranges.map fun range => range.text.toList := by
    rw [← hlines]
    exact List.mem_singleton.mpr rfl
  obtain ⟨range, -, hrange⟩ := List.mem_map.mp hempty
  rw [toList_text, Text.toList_hex] at hrange
  cases hrange

/-- **The lines of a text.** -/
theorem map_text_of_dump (h : dump ranges = dump others) :
    (ranges.map fun range => range.text.toList) = others.map fun range => range.text.toList := by
  by_cases hnil : ranges = []
  · have hothers : others = [] := dump_eq_empty.mp (h.symm.trans (dump_eq_empty.mpr hnil))
    rw [hnil, hothers]
  · have hothers : others ≠ [] := fun hothers =>
      hnil (dump_eq_empty.mp (h.trans (dump_eq_empty.mpr hothers)))
    rw [← splitOn_dump hnil, h, splitOn_dump hothers]

end Range

/-! ## 4. The ranges of a walk -/

theorem Entry.valid_of_leaf {entry : Entry} {physical : PAddr} {flags : Flags}
    (h : entry.kind = .leaf physical flags) : flags.valid = true := by
  obtain ⟨⟨hvalid, -⟩, -, rfl⟩ := kind_eq_leaf.mp h
  rw [Flags.valid, getLsbD_flags entry (by decide), Nat.pow_zero, Nat.div_one]
  exact decide_eq_true hvalid

/-- What a walk gives is mapped. -/
theorem Walk.Runs.valid {target : Target} {count : Nat} {walk : Walk} {mapping : Mapping}
    {item : Option (Except Fault Mapping)} {rest : List Cursor}
    (hruns : Runs target count walk item rest) (hitem : item = some (.ok mapping)) :
    mapping.flags.valid = true := by
  induction hruns with
  | unreadable => cases hitem
  | starts _ _ ih => exact ih hitem
  | ends => cases hitem
  | gives hstep =>
    cases hitem
    cases hstep with
    | maps cursor outer hnext physical flags hkind => exact Entry.valid_of_leaf hkind
  | quiet _ _ ih => exact ih hitem

theorem Walk.valid_of_pull {target : Target} {walk rest : Walk} {seen : Array Event}
    {mapping : Mapping} (hpull : Traversal.pull target walk = ⟨seen, some (.ok mapping), rest⟩) :
    mapping.flags.valid = true := by
  obtain ⟨count, cursors, -, hruns, -⟩ := runs_pull target walk
  rw [show pull target walk = ⟨seen, some (.ok mapping), rest⟩ from hpull] at hruns
  exact hruns.valid rfl

/-- **A range held back has the permission of something mapped.** -/
theorem Joining.isPermission_of_stage {source walk : Walk} {held : Option Range}
    (h : Stage source walk held) : ∀ range ∈ held, range.permission.IsPermission := by
  induction h with
  | start => exact nofun
  | drops => exact nofun
  | takes _ hpull =>
    intro range hrange
    cases hrange
    exact Flags.isPermission_permission (Walk.valid_of_pull hpull)
  | @joins _ _ _ range _ _ _ _ _ hjoin ih =>
    obtain ⟨-, rfl⟩ := Range.join?_eq_some hjoin
    intro joined hjoined
    cases hjoined
    exact ih range rfl

/-- **What the ranges of a walk are like**, however the kernel changes between the pulls. -/
theorem Joining.of_pulls {root : PAddr} {targets : List Target} {range : Range}
    (h : some (.ok range) ∈ Traversal.pulls targets (Joining.of (Walk.unread root))) :
    range.Bounded ∧ range.permission.IsPermission := by
  obtain ⟨walk, hstage⟩ := (stage_pulls (Walk.unread root) targets).2 range h
  exact ⟨(bounded_of_stage hstage).2 range rfl, isPermission_of_stage hstage range rfl⟩

/-! ## 5. The text of a dump -/

/-- **Ranges become lines** as long as no fault is among them. -/
theorem Range.foldlM_lines {items : List (Except Fault Range)} {before lines : Array String} :
    items.foldlM (fun lines item =>
        (Outcome.ofResult (item.map fun range => lines.push range.text)).result) before =
          .ok lines ↔
      ∃ ranges : List Range, items = ranges.map .ok ∧
        lines.toList = before.toList ++ ranges.map text := by
  induction items generalizing before with
  | nil =>
    rw [List.foldlM_nil]
    refine ⟨fun h => ?_, fun ⟨ranges, hranges, h⟩ => ?_⟩
    · cases h
      exact ⟨[], rfl, (List.append_nil _).symm⟩
    · cases ranges with
      | nil => exact congrArg _ (Array.toList_inj.mp (h.trans (List.append_nil _)).symm)
      | cons range ranges => cases hranges
  | cons item items ih =>
    rw [List.foldlM_cons, bind_eq_ok]
    refine ⟨fun ⟨between, hfirst, h⟩ => ?_, fun ⟨ranges, hranges, h⟩ => ?_⟩
    · obtain ⟨range, rfl, rfl⟩ := map_eq_ok.mp hfirst
      obtain ⟨ranges, rfl, hlines⟩ := ih.mp h
      rw [Array.toList_push, List.append_assoc] at hlines
      exact ⟨range :: ranges, rfl, hlines⟩
    · cases ranges with
      | nil => cases hranges
      | cons range ranges =>
        obtain ⟨rfl, rfl⟩ := List.cons.inj hranges
        refine ⟨before.push range.text, rfl, ih.mpr ⟨ranges, rfl, ?_⟩⟩
        rw [h, Array.toList_push, List.append_assoc]
        rfl

/-- The lines for the tables under a root are those of the ranges there. -/
theorem Range.lines_eq_ok {target : Target} {root : PAddr} {all : Array String} :
    (lines target root).result = .ok all ↔
      ∃ ranges : List Range,
        Traversal.stream target (Joining.of (Walk.unread root)) = ranges.map .ok ∧
          all.toList = ranges.map text := by
  rw [lines, Traversal.result_fold, foldlM_lines]
  rfl

/-- **What a page dump shows**: the ranges under the root that the paging register selects, as
    physical mode sees them. -/
theorem dumpPages_eq_ok {σ : Type} [Debuggee σ] {register : String} {s : σ} {text : String} :
    (dumpPages register s).1.result = .ok text ↔
      ∃ bits inside ranges, (Debuggee.view s).register register = .ok bits ∧
        Debuggee.setPhysical true s = (.ok (), inside) ∧
        Traversal.stream (Debuggee.view inside) (Joining.of (Walk.unread (Satp.mk bits).root)) =
          ranges.map .ok ∧
        text = Range.dump ranges := by
  rcases dump_ways register s with ⟨fault, hregister⟩ | ⟨bits, fault, after, hregister, henter⟩ |
    ⟨bits, inside, hregister, henter⟩
  · rw [dumpPages_unread hregister, hregister]
    exact iff_of_false (fun h => nomatch h) fun ⟨_, _, _, h, _⟩ => nomatch h
  · rw [dumpPages_refused hregister henter, henter]
    exact iff_of_false (fun h => nomatch h) fun ⟨_, _, _, _, h, _⟩ => nomatch h
  · rw [dumpPages_entered hregister henter, hregister, henter]
    dsimp only
    rw [map_eq_ok]
    constructor
    · intro ⟨all, hall, htext⟩
      obtain ⟨ranges, hstream, hlines⟩ := Range.lines_eq_ok.mp hall
      rw [hlines] at htext
      exact ⟨bits, inside, ranges, rfl, rfl, hstream, htext.symm⟩
    · intro ⟨bits', inside', ranges, hbits, hinside, hstream, htext⟩
      cases hbits
      cases hinside
      exact ⟨(ranges.map Range.text).toArray, Range.lines_eq_ok.mpr ⟨ranges, hstream, rfl⟩,
        htext.symm⟩

/-- **Ranges that are shown alike are the same**, however many there are and whatever their
    addresses are, if their permissions are those of something mapped; only where there are none is
    the text empty. All ranges of a walk have such a permission, lie below bit 39 and are computed
    with exactly; and the text of a page dump shows the ranges of a walk in this way. -/
theorem Range.dump_unambiguous {σ : Type} [Debuggee σ] :
    (∀ ranges others : List Range, (∀ range ∈ ranges, range.permission.IsPermission) →
      (∀ range ∈ others, range.permission.IsPermission) →
        dump ranges = dump others → ranges = others) ∧
    (∀ ranges : List Range, dump ranges = "" ↔ ranges = []) ∧
    (∀ (root : PAddr) (targets : List Target) (range : Range),
      some (.ok range) ∈ Traversal.pulls targets (Joining.of (Walk.unread root)) →
        range.Bounded ∧ range.Exact ∧ range.permission.IsPermission) ∧
    ∀ (register : String) (s : σ) (text : String),
      (dumpPages register s).1.result = .ok text ↔
        ∃ bits inside ranges, (Debuggee.view s).register register = .ok bits ∧
          Debuggee.setPhysical true s = (.ok (), inside) ∧
          Traversal.stream (Debuggee.view inside) (Joining.of (Walk.unread (Satp.mk bits).root)) =
            ranges.map .ok ∧
          text = dump ranges := by
  refine ⟨fun ranges others h hothers hsame => ?_, fun ranges => dump_eq_empty,
    fun root targets range h => ?_, fun register s text => dumpPages_eq_ok⟩
  · exact map_text_injective h hothers (map_text_of_dump hsame)
  · obtain ⟨hbounded, hpermission⟩ := Joining.of_pulls h
    exact ⟨hbounded, hbounded.exact, hpermission⟩

/-- Two pages, the second of which goes on from the first. -/
def neighbouringPages : List Range :=
  [⟨⟨0x1000⟩, ⟨0x1FFF⟩, ⟨0x80000000⟩, ⟨0x0F⟩⟩, ⟨⟨0x2000⟩, ⟨0x2FFF⟩, ⟨0x80001000⟩, ⟨0x0F⟩⟩]

/-- The pages are shown in one line, which is the line of one range only. -/
theorem Range.dump_unambiguous_neighbouringPages :
    (∀ range ∈ merge neighbouringPages, range.permission.IsPermission) ∧
      dump (merge neighbouringPages) = "0x1000-0x2fff => 0x80000000-0x80001fff (S XWR)" ∧
      dump (merge neighbouringPages) = dump [⟨⟨0x1000⟩, ⟨0x2FFF⟩, ⟨0x80000000⟩, ⟨0x0F⟩⟩] ∧
      merge neighbouringPages = [⟨⟨0x1000⟩, ⟨0x2FFF⟩, ⟨0x80000000⟩, ⟨0x0F⟩⟩] := by
  have hpermission : (Flags.mk 0x0F).IsPermission := ⟨rfl, rfl⟩
  have hmerged : ∀ range ∈ merge neighbouringPages, range.permission.IsPermission :=
    forall_merge (fun _ h _ => h) fun range hrange => by
      rcases List.mem_cons.mp hrange with rfl | hrange
      · exact hpermission
      · rw [List.mem_singleton.mp hrange]
        exact hpermission
  have hjoined : ∀ range ∈ [(⟨⟨0x1000⟩, ⟨0x2FFF⟩, ⟨0x80000000⟩, ⟨0x0F⟩⟩ : Range)],
      range.permission.IsPermission := fun range hrange => by
    rw [List.mem_singleton.mp hrange]
    exact hpermission
  have hsame : dump (merge neighbouringPages) =
      dump [⟨⟨0x1000⟩, ⟨0x2FFF⟩, ⟨0x80000000⟩, ⟨0x0F⟩⟩] := by decide +kernel
  exact ⟨hmerged, by decide +kernel, hsame,
    (@dump_unambiguous Image _).1 _ _ hmerged hjoined hsame⟩

end KernelProbe
