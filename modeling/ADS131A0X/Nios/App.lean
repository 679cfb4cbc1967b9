import ADS131A0X.Nios.Call

/-!
# The SPI command of the application

`spi_command` hands a buffer to the driver without its length: `sizeof(write_data)` is the size of a
pointer, so four bytes go out, whatever the caller has in mind. And it takes the number of bytes that
were read for an error code, so it reports an error exactly when nothing was to be read.

## Main definitions

* `spiCommand`, `spiCommandReport`: the call of the driver, and the text that is printed after it

## Main results

* `Session.spi_command_reports`: what is sent, stored and printed
-/

namespace ADS131A0X

open Waveform

/-- `sizeof(write_data)`: the size of a pointer on the processor. -/
def sizeofWriteData : ℕ := 4

/-- The call of `spi_command`, with the bytes from `write_data` on. -/
def spiCommand (writeData : List (BitVec 8)) (readLength : ℕ) : AltAvalonSpiCommand :=
  .call 0 (writeData.take sizeofWriteData) readLength 0#32

/-- The text that `spi_command` prints after the call. -/
def spiCommandReport (spiCheck : ℕ) : Option String :=
  if spiCheck = 0 then some "SPI Transmit Error!\n" else none

namespace Session

variable {σ : Session}

/-- The number of bytes to read is an argument of the call, and its result. -/
theorem result_eq {slave readLength : ℕ} {writeData : List (BitVec 8)} {flags : BitVec 32}
    (hc : σ.command = .call slave writeData readLength flags)
    (h : (σ.history.spi σ.start).AtRest) (hpos : 0 < writeData.length + readLength) (n : ℕ) :
    (σ.system n).command.result = readLength := (ledger hc h hpos n).readLength

/-- **The SPI command of the application**, on a core at rest with at least four bytes from `write_data`
on. Within `14166 + 3539 r` active clocks it has sent the first four of them and a zero for every byte
to read, and stored the bytes that answer the zeros. It prints an error text iff nothing was to be
read, although nothing has failed. -/
theorem spi_command_reports (σ : Session) (writeData : List (BitVec 8)) (readLength : ℕ)
    (hc : σ.command = spiCommand writeData readLength) (hlen : 4 ≤ writeData.length)
    (h : (σ.history.spi σ.start).AtRest) (n : ℕ)
    (hn : 14166 + 3539 * readLength ≤ Nat.count σ.active n) :
    (σ.system n).command.place = .done ∧
      (stepsIn σ.run.sclk.FallsAt σ.start (σ.start + n)).map σ.run.mosi =
        (writeData.take 4 ++ List.replicate readLength 0#8).flatMap msbFirst ∧
      (σ.system n).command.readData.flatMap msbFirst =
        ((stepsIn σ.run.sclk.FallsAt σ.start (σ.start + n)).map σ.run.miso).drop 32 ∧
      (spiCommandReport (σ.system n).command.result = some "SPI Transmit Error!\n" ↔
        readLength = 0) := by
  have htake : (writeData.take sizeofWriteData).length = 4 := by
    rw [List.length_take, sizeofWriteData]
    omega
  have hpos : 0 < (writeData.take sizeofWriteData).length + readLength := by omega
  have hdone : (σ.system n).command.place = .done :=
    done_of_active hc h hpos (by rw [htake]; omega)
  refine ⟨hdone, mosi_of_done hc h hpos hdone, ?_, ?_⟩
  · rw [miso_of_done hc h hpos hdone, htake]
  · rw [result_eq hc h hpos n, spiCommandReport]
    by_cases hr : readLength = 0 <;> simp [hr]

theorem spi_command_reports_steady :
    spiCommandReport
        ((steady true (spiCommand [0xA5#8, 0x5A#8, 0#8, 0#8] 0)).system 14166).command.result =
      some "SPI Transmit Error!\n" :=
  (spi_command_reports _ [0xA5#8, 0x5A#8, 0#8, 0#8] 0 rfl (by decide) (steady_atRest _ _) 14166
    (by rw [count_steady_active])).2.2.2.mpr rfl

end Session

end ADS131A0X
