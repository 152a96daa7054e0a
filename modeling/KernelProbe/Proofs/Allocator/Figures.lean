import KernelProbe.Allocator.Report
import KernelProbe.Proofs.Text.Rounding

/-!
# The figures of a report

A report shows bytes in kilobytes, as decimal numbers with two decimals. A count of bytes is rounded
twice on its way there, first to a floating point number and then to hundredths. The first rounding
leaves all counts up to `2 ^ 53` as they are, so that their figures are as near as two decimals can
be; and for all counts the order of the figures is that of the counts.

* `Decimal`, `Shows` -- decimal numbers with two decimals, and what they stand for;
* `shows_twoDecimals` -- hundredths are written as they are, with all carries;
* `kilobyteHundredths_mono` -- a figure never falls below that of a smaller count;
* `Report.figures_rounded` -- all of it together, for both figures of a report.
-/

namespace KernelProbe

namespace Text

/-! ## 1. Decimal numbers -/

/-- A decimal number with two decimals, as it is written. -/
structure Decimal where
  whole : List Char
  tenth : Char
  hundredth : Char
  whole_ne_nil : whole ≠ []
  isDigit : ∀ c ∈ whole ++ [tenth, hundredth], c.isDigit

/-- The characters of the number. -/
def Decimal.written (decimal : Decimal) : List Char :=
  decimal.whole ++ ['.', decimal.tenth, decimal.hundredth]

/-- What the number stands for: all its digits, in hundredths. -/
def Decimal.value (decimal : Decimal) : ℚ :=
  Nat.ofDigitChars 10 (decimal.whole ++ [decimal.tenth, decimal.hundredth]) 0 / 100

/-- **A text shows a number** if it is a decimal number with two decimals that stands for it. -/
def Shows (text : String) (value : ℚ) : Prop :=
  ∃ decimal : Decimal, text.toList = decimal.written ∧ decimal.value = value

theorem Decimal.value_eq_of_written {one other : Decimal} (h : one.written = other.written) :
    one.value = other.value := by
  obtain ⟨hwhole, hrest⟩ := List.append_inj' h rfl
  obtain ⟨htenth, hlast⟩ := List.cons.inj (List.cons.inj hrest).2
  rw [Decimal.value, Decimal.value, hwhole, htenth, (List.cons.inj hlast).1]

theorem Shows.unique {text : String} {value other : ℚ} (h : Shows text value)
    (hother : Shows text other) : value = other := by
  obtain ⟨_, hwritten, rfl⟩ := h
  obtain ⟨_, hwritten', rfl⟩ := hother
  exact Decimal.value_eq_of_written (hwritten.symm.trans hwritten')

theorem toList_toString (n : Nat) : (toString n).toList = Nat.toDigits 10 n := by
  rw [Nat.toString_eq_ofList_toDigits, String.toList_ofList]

theorem toList_digit {digit : Nat} (h : digit < 10) :
    (toString digit).toList = [digit.digitChar] := by
  rw [toList_toString, Nat.toDigits_of_lt_base h]

theorem isDigit_digitChar : ∀ digit < 10, (Nat.digitChar digit).isDigit := by
  decide

/-- **Hundredths are written as they are.** -/
theorem shows_twoDecimals (n : Nat) : Shows (twoDecimals n) (n / 100) := by
  have htenth : n / 10 % 10 < 10 := Nat.mod_lt _ (by decide)
  have hhundredth : n % 10 < 10 := Nat.mod_lt _ (by decide)
  have hdigits : ∀ c ∈ Nat.toDigits 10 (n / 100) ++
      [(n / 10 % 10).digitChar, (n % 10).digitChar], c.isDigit := fun c hc => by
    rcases List.mem_append.mp hc with hc | hc
    · exact Nat.isDigit_of_mem_toDigits (by decide) (by decide) hc
    · rcases List.mem_pair.mp hc with rfl | rfl
      · exact isDigit_digitChar _ htenth
      · exact isDigit_digitChar _ hhundredth
  refine ⟨⟨Nat.toDigits 10 (n / 100), (n / 10 % 10).digitChar, (n % 10).digitChar,
    Nat.toDigits_ne_nil, hdigits⟩, ?_, ?_⟩
  · rw [twoDecimals, String.toList_append, String.toList_append, String.toList_append,
      toList_toString, toList_digit htenth, toList_digit hhundredth, List.append_assoc,
      List.append_assoc]
    rfl
  · have hvalue : Nat.ofDigitChars 10 (Nat.toDigits 10 (n / 100) ++
        [(n / 10 % 10).digitChar, (n % 10).digitChar]) 0 = n := by
      rw [Nat.ofDigitChars_append, Nat.ofDigitChars_ten_toDigits,
        Nat.ofDigitChars_cons_digitChar_of_lt_ten htenth,
        Nat.ofDigitChars_cons_digitChar_of_lt_ten hhundredth, Nat.ofDigitChars_nil]
      omega
    rw [Decimal.value, hvalue]

/-! ## 2. Kilobytes -/

variable {few many : UInt64}

theorem shows_kilobytes (bytes : UInt64) :
    Shows (kilobytes bytes) (kilobyteHundredths bytes / 100) :=
  shows_twoDecimals _

/-- A number is rounded to two decimals. -/
def RoundsToHundredths : ℚ → ℚ → Prop :=
  RoundsTo (Multiple (1 / 100)) (EvenMultiple (1 / 100))

theorem roundsTo_kilobyteHundredths (bytes : UInt64) :
    RoundsToHundredths (roundToBits 53 bytes.toNat / 1024) (kilobyteHundredths bytes / 100) := by
  have hround := roundsTo_roundQuotient (roundToBits 53 bytes.toNat * 100) (by decide : 0 < 1024)
    (by norm_num : (0 : ℚ) < 1 / 100)
  have hquotient : ((roundToBits 53 bytes.toNat * 100 : ℕ) / (1024 : ℕ) * (1 / 100) : ℚ) =
      roundToBits 53 bytes.toNat / 1024 := by
    push_cast
    ring
  rwa [hquotient, mul_one_div] at hround

/-- **A figure never falls below that of a smaller count.** -/
theorem kilobyteHundredths_mono (h : few ≤ many) :
    kilobyteHundredths few ≤ kilobyteHundredths many :=
  roundQuotient_mono (Nat.mul_le_mul_right 100
    (roundToBits_mono (UInt64.le_iff_toNat_le.mp h) many.toNat_lt)) (by decide)

end Text

/-! ## 3. The figures of a report -/

namespace Report

open Text

theorem toNat_bytesOfPages {report : Report} (h : report.totalPages.toNat < 2 ^ 52) :
    (report.totalPages * .ofNat pageSize).toNat = report.totalPages.toNat * 4096 := by
  have hsize : (UInt64.ofNat pageSize).toNat = 4096 := by decide
  rw [UInt64.toNat_mul, hsize, Nat.mod_eq_of_lt (by omega)]

/-- **The figures of a report are rounded and in order.** The figure of a count of bytes has two
    decimals and is what comes of the count when it is rounded to a floating point number, divided
    by 1024, which is exact, and rounded to two decimals. For a count of at most `2 ^ 53` this is
    the exact quotient rounded to two decimals, and for all counts the figure of a greater one is no
    smaller. A report shows such a figure of its bytes, and another one of the bytes in its pages,
    if these can be counted. -/
theorem figures_rounded :
    (∀ bytes : UInt64, ∃ double figure : ℚ, RoundsTo IsDouble IsEvenDouble bytes.toNat double ∧
      IsDouble (double / 1024) ∧ RoundsToHundredths (double / 1024) figure ∧
        Shows (kilobytes bytes) figure) ∧
    (∀ (bytes : UInt64) (figure : ℚ), bytes.toNat ≤ 2 ^ 53 → Shows (kilobytes bytes) figure →
      RoundsToHundredths (bytes.toNat / 1024) figure) ∧
    (∀ (few many : UInt64) (less more : ℚ), few ≤ many → Shows (kilobytes few) less →
      Shows (kilobytes many) more → less ≤ more) ∧
    (∀ report : Report, report.totalPages.toNat < 2 ^ 52 →
      ∃ (listing : String) (inPages : UInt64), inPages.toNat = report.totalPages.toNat * 4096 ∧
        report.text = listing ++ "malloced memory: " ++ kilobytes report.totalBytes ++ "KB\n" ++
          "malloc page used: " ++ toString report.totalPages.toNat ++ " (" ++
          kilobytes inPages ++ "KB)") := by
  refine ⟨fun bytes => ?_, fun bytes figure hsmall hshows => ?_,
    fun few many less more hle hless hmore => ?_, fun report hpages => ?_⟩
  · exact ⟨_, _, roundsTo_roundToBits bytes.toNat_lt, isDouble_roundToBits_div bytes.toNat_lt,
      roundsTo_kilobyteHundredths bytes, shows_kilobytes bytes⟩
  · rw [hshows.unique (shows_kilobytes bytes), ← roundToBits_of_le hsmall]
    exact roundsTo_kilobyteHundredths bytes
  · rw [hless.unique (shows_kilobytes few), hmore.unique (shows_kilobytes many)]
    have hhundredths : (kilobyteHundredths few : ℚ) ≤ kilobyteHundredths many := by
      exact_mod_cast kilobyteHundredths_mono hle
    exact div_le_div_of_nonneg_right hhundredths (by norm_num)
  · exact ⟨_, _, toNat_bytesOfPages hpages, rfl⟩

/-- A count whose figure is a tie, and a report of it. -/
theorem figures_rounded_tie :
    RoundsToHundredths (384 / 1024) (38 / 100) ∧ (12 / 100 : ℚ) ≤ 38 / 100 ∧
      ∃ listing, (Report.mk [⟨16, 24, 3⟩] 384 3).text = listing ++ "malloced memory: " ++ "0.38" ++
        "KB\n" ++ "malloc page used: " ++ "3" ++ " (" ++ "12.00" ++ "KB)" := by
  have htie : Shows (kilobytes 384) (38 / 100) := by
    exact_mod_cast shows_kilobytes 384
  have heighth : Shows (kilobytes 128) (12 / 100) := by
    exact_mod_cast shows_kilobytes 128
  obtain ⟨-, hnear, horder, hreport⟩ := figures_rounded
  refine ⟨hnear 384 _ (by decide) htie, horder 128 384 _ _ (by decide) heighth htie, ?_⟩
  obtain ⟨listing, inPages, hcount, htext⟩ := hreport ⟨[⟨16, 24, 3⟩], 384, 3⟩ (by decide)
  obtain rfl : inPages = 12288 := UInt64.toNat_inj.mp hcount
  exact ⟨listing, htext⟩

end Report

end KernelProbe
