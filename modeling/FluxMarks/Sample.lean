import FluxMarks.Error

/-!
# Samples and clock periods

A capture is a string of sample bytes, each the counter reading between
two flux transitions. The recording clock divides that interval into
cells, and the number of cells is all the code cares about: `quantize`
finds it, `sampleOf` goes back. The calibration of the capture hardware
is kept in thousandths of a counter tick, so both are exact arithmetic
on naturals.
-/

namespace FluxMarks

namespace Calibration

/-- Thousandths of a tick added to a sample before it is divided. Half a
cell, so that cutting off the quotient rounds it to the nearest count. -/
def offset : Nat := 6666

/-- Thousandths of a tick in one clock cell. -/
def cell : Nat := 13333

end Calibration

/-- The longest period that one sample byte can express. -/
def longestPeriod : Nat := 19

/-- The clock period of a sample: the nearest whole number of cells. -/
def quantize (sample : UInt8) : Nat :=
  (1000 * sample.toNat + Calibration.offset) / Calibration.cell

/-- A sample that stands for a period, if a byte can hold one. The whole
ticks of `period` cells lie about five ticks clear of the samples that
quantize to its neighbours. -/
def sampleOf (period : Nat) : Except CaptureError UInt8 :=
  if longestPeriod < period then
    .error (.periodOutOfRange period longestPeriod)
  else
    .ok (UInt8.ofNat (Calibration.cell * period / 1000))

end FluxMarks
