import ADS131A0X.Nios.Timer

/-!
# The interrupt of the timer

`init_timer` starts the timer and registers `timer_isr`, which toggles the LED, acknowledges the
interrupt, and prints a message whenever the LED goes off. The timer goes on counting meanwhile, so
that a timeout can find the last one unacknowledged, or come in the very clock of the acknowledgement.
Each call of the service routine answers one timeout, and these are the ones without a call.

## Main definitions

* `TimerIsr`: the place in `init_timer` and `timer_isr`, and the variable `led_state`
* `TimerSystem`, `TimerSystem.step`: the timer, the GPIO and the processor, and one clock
* `TimerSystem.Run.timesOut`, `TimerSystem.Run.serves`, `TimerSystem.Run.misses`: what can happen at a
  clock

## Main results

* `TimerSystem.Run.services_accounted`: timeouts, calls of the service routine and what it has done
* `TimerSystem.Run.blinks`: the LED and the messages, when the processor keeps up

## Implementation notes

The processor does its next step at a clock of its own choice. The service routine is called only at
a clock at which the interrupt is there, and nothing interrupts it. Outside of it, other code can
write to the GPIO.
-/

namespace ADS131A0X

open Transition Divider

/-! ## The masks of the timer -/

def timerControlItoMsk : BitVec 16 := 1#16
def timerControlContMsk : BitVec 16 := 2#16
def timerControlStartMsk : BitVec 16 := 4#16

/-! ## The GPIO -/

/-- The register of `ADS131A0X_GPIO`. -/
structure Gpio where
  dataOut : BitVec 2 := 0#2
  deriving DecidableEq, Repr

namespace Gpio

/-- The levels at the inputs of the GPIO at an edge of `clk`. -/
structure Inputs where
  address : BitVec 2
  chipselect : Bool
  writeN : Bool
  writedata : BitVec 32
  deriving DecidableEq, Repr

/-- One edge of `clk`, with `reset_n` high. -/
def posedgeClk (i : Inputs) (m : Gpio) : Gpio where
  dataOut :=
    if i.chipselect && !i.writeN && i.address == 0#2 then i.writedata.setWidth 2 else m.dataOut

end Gpio

/-! ## The software -/

/-- The places in `init_timer` and `timer_isr`, and the code outside of them. -/
inductive TimerIsr.Place
  | control
  | register
  | main
  | pio
  | status
  | putstr
  deriving DecidableEq, Repr

/-- A write to a register of the timer or of the GPIO. -/
inductive IoWrite
  | timer (address : BitVec 3) (data : BitVec 16)
  | gpio (data : BitVec 32)
  deriving DecidableEq, Repr

/-- The place of the processor, and the variable `led_state` of `timer_isr`. -/
structure TimerIsr where
  place : TimerIsr.Place := .control
  ledState : Bool := false
  deriving DecidableEq, Repr

namespace TimerIsr

variable (c : TimerIsr)

/-- The register write at a place. -/
def write : Option IoWrite :=
  match c.place with
  | .control =>
    some (.timer 1#3 (timerControlStartMsk ||| timerControlContMsk ||| timerControlItoMsk))
  | .pio => some (.gpio (if c.ledState then 1#32 else 0#32))
  -- clear the timer interrupt
  | .status => some (.timer 0#3 0#16)
  | _ => none

/-- The text that `timer_isr` prints. -/
def hello : String := "Hello from Nios II!\n"

/-- What is printed at a place. -/
def message : List String :=
  match c.place with
  | .putstr => [hello]
  | _ => []

/-- The next step of the processor. -/
def next (irq : Bool) : TimerIsr :=
  match c.place with
  | .control => { c with place := .register }
  | .register => { c with place := .main }
  | .main => if irq then { place := .pio, ledState := !c.ledState } else c
  | .pio => { c with place := .status }
  | .status => { c with place := if c.ledState = false then .putstr else .main }
  | .putstr => { c with place := .main }

/-- `timer_isr` has been called and has not acknowledged yet. -/
def InService : Prop := c.place = .pio ∨ c.place = .status

instance : Decidable c.InService := inferInstanceAs (Decidable (_ ∨ _))

/-- What the call of `timer_isr` under way is going to print. -/
def due : List String :=
  if (c.InService ∨ c.place = .putstr) ∧ c.ledState = false then [hello] else []

/-- The message is printed when the LED is off. -/
def Consistent : Prop := c.place = .putstr → c.ledState = false

theorem next_of_ne_main {c : TimerIsr} (irq : Bool) (h : c.place ≠ .main) (hc : c.Consistent) :
    (c.next irq).ledState = c.ledState ∧ (c.next irq).Consistent ∧
      c.message ++ (c.next irq).due = c.due := by
  obtain ⟨place, ledState⟩ := c
  cases place
  case main => exact absurd rfl h
  case putstr =>
    obtain rfl : ledState = false := hc rfl
    exact ⟨rfl, nofun, rfl⟩
  case status => cases ledState <;> exact ⟨rfl, by simp [Consistent, next], rfl⟩
  all_goals cases ledState <;> exact ⟨rfl, nofun, rfl⟩

/-- `init_timer` is run once. -/
theorem next_place_ne_control {c : TimerIsr} (irq : Bool) (h : c.place ≠ .control) :
    (c.next irq).place ≠ .control := by
  obtain ⟨place, ledState⟩ := c
  cases place
  case control => exact absurd rfl h
  case main => cases irq <;> exact nofun
  case status => cases ledState <;> exact nofun
  all_goals exact nofun

end TimerIsr

/-! ## The system -/

/-- The timer, the GPIO, the processor, and what was printed. -/
structure TimerSystem where
  timer : Timer := {}
  gpio : Gpio := {}
  isr : TimerIsr := {}
  console : List String := []
  deriving DecidableEq, Repr

namespace TimerSystem

/-- What the environment decides at a clock: whether the processor does its next step, what other code
writes to the GPIO, and the levels that the bus has apart from a write. -/
structure Inputs where
  go : Bool
  other : Option (BitVec 32) := none
  address : BitVec 3 := 0#3
  writedata : BitVec 32 := 0#32
  deriving DecidableEq, Repr

section Step

variable (i : Inputs) (s : TimerSystem)

/-- The write on the bus at a clock. -/
def write : Option IoWrite :=
  if s.isr.place = .main then i.other.map .gpio
  else if i.go then s.isr.write
  else none

/-- The inputs of the timer at a clock. -/
def timerBus : Timer.Inputs :=
  match s.write i with
  | some (.timer address data) =>
    { address := address
      chipselect := true
      writeN := false
      writedata := data }
  | _ =>
    { address := i.address
      chipselect := false
      writeN := true
      writedata := i.writedata.setWidth 16 }

/-- The inputs of the GPIO at a clock. -/
def gpioBus : Gpio.Inputs :=
  match s.write i with
  | some (.gpio data) =>
    { address := 0#2
      chipselect := true
      writeN := false
      writedata := data }
  | _ =>
    { address := i.address.setWidth 2
      chipselect := false
      writeN := true
      writedata := i.writedata }

/-- One clock. -/
def step : TimerSystem where
  timer := s.timer.posedgeClk (s.timerBus i)
  gpio := s.gpio.posedgeClk (s.gpioBus i)
  isr := if i.go then s.isr.next s.timer.irq else s.isr
  console := if i.go then s.console ++ s.isr.message else s.console

/-- A timeout waits for a call of `timer_isr`. -/
def pending : Bool := s.timer.timeoutOccurred && !decide s.isr.InService

end Step

/-- The system after a reset. -/
def machine : Machine Inputs TimerSystem where
  init := {}
  step := fun s i => s.step i

/-- A run of the system: what the environment decides, from a reset on. -/
structure Run where
  input : ℕ → Inputs

namespace Run

variable (ρ : Run) (n : ℕ)

/-- The system after the first `n` clocks of the run. -/
def system : ℕ → TimerSystem := machine.run ρ.input

theorem system_succ : ρ.system (n + 1) = (ρ.system n).step (ρ.input n) := Machine.run_succ _ _ n

/-- The processor does its next step. -/
def goes : Prop := (ρ.input n).go = true

/-- The run of the timer. -/
def timerRun : Timer.Run where
  event := fun n => .clk ((ρ.system n).timerBus (ρ.input n))

theorem timerRun_timer : ρ.timerRun.timer n = (ρ.system n).timer := by
  induction n with
  | zero => rfl
  | succ n ih =>
    rw [Timer.Run.timer_succ, ih, system_succ]
    rfl

/-- A timeout occurs. -/
def timesOut : Prop := ρ.timerRun.TimesOut n

/-- `timer_isr` is called. -/
def serves : Prop :=
  (ρ.system n).isr.place = .main ∧ ρ.goes n ∧ (ρ.system n).timer.irq = true

/-- The timer is acknowledged. -/
def acknowledges : Prop := (ρ.system n).isr.place = .status ∧ ρ.goes n

/-- A timeout occurs and does not raise the flag of the timer: the last one is not acknowledged yet, or
is acknowledged in this clock. -/
def misses : Prop :=
  ρ.timesOut n ∧ ((ρ.system n).timer.timeoutOccurred = true ∨ ρ.acknowledges n)

instance : DecidablePred ρ.goes := fun _ => inferInstanceAs (Decidable (_ = true))

instance : DecidablePred ρ.timesOut := fun _ => inferInstanceAs (Decidable (_ = true))

instance : DecidablePred ρ.serves := fun _ => inferInstanceAs (Decidable (_ ∧ _))

instance : DecidablePred ρ.acknowledges := fun _ => inferInstanceAs (Decidable (_ ∧ _))

instance : DecidablePred ρ.misses := fun _ => inferInstanceAs (Decidable (_ ∧ _))

variable {ρ n}

/-! ### One clock -/

theorem isr_succ : (ρ.system (n + 1)).isr =
    if ρ.goes n then (ρ.system n).isr.next (ρ.system n).timer.irq else (ρ.system n).isr := by
  rw [system_succ]
  rfl

theorem console_succ : (ρ.system (n + 1)).console =
    if ρ.goes n then (ρ.system n).console ++ (ρ.system n).isr.message else (ρ.system n).console := by
  rw [system_succ]
  rfl

theorem acknowledges_iff : ρ.timerRun.Acknowledges n ↔ ρ.acknowledges n := by
  show ((ρ.system n).timerBus (ρ.input n)).statusWrStrobe = true ↔ _
  rw [acknowledges, goes]
  cases hp : (ρ.system n).isr.place <;> cases hgo : (ρ.input n).go <;>
    cases ho : (ρ.input n).other <;>
    simp [timerBus, write, TimerIsr.write, Timer.Inputs.statusWrStrobe, hp, hgo, ho]

theorem timeoutOccurred_succ : (ρ.system (n + 1)).timer.timeoutOccurred = true ↔
    ¬ ρ.acknowledges n ∧ (ρ.timesOut n ∨ (ρ.system n).timer.timeoutOccurred = true) := by
  rw [← timerRun_timer, ← timerRun_timer, Timer.Run.timeoutOccurred_succ, acknowledges_iff]
  rfl

theorem inService_succ : (ρ.system (n + 1)).isr.InService ↔
    ρ.serves n ∨ ((ρ.system n).isr.InService ∧ ¬ ρ.acknowledges n) := by
  rw [isr_succ, serves, acknowledges]
  simp only [TimerIsr.InService, TimerIsr.next]
  by_cases hgo : ρ.goes n
  · cases hp : (ρ.system n).isr.place <;> simp [hgo]
    · cases (ρ.system n).timer.irq <;> simp [hp]
    · cases (ρ.system n).isr.ledState <;> simp
  · simp [hgo]

/-! ### The accounts -/

theorem toNat_pending (s : TimerSystem) : s.pending.toNat =
    if s.timer.timeoutOccurred = true ∧ ¬ s.isr.InService then 1 else 0 := by
  rw [pending]
  by_cases hI : s.isr.InService <;> cases s.timer.timeoutOccurred <;> simp [hI]

/-- What happened to the timeouts. -/
structure Accounts (s : TimerSystem) (timeouts services misses : ℕ) : Prop where
  timeouts : timeouts = services + misses + s.pending.toNat
  timeoutOccurred : s.isr.InService → s.timer.timeoutOccurred = true

theorem accounts (ρ : Run) (n : ℕ) :
    Accounts (ρ.system n) (Nat.count ρ.timesOut n) (Nat.count ρ.serves n)
      (Nat.count ρ.misses n) := by
  induction n with
  | zero => exact ⟨rfl, fun h => by rcases h with h | h <;> cases h⟩
  | succ n ih =>
    obtain ⟨htimeouts, hservice⟩ := ih
    have hserves : ρ.serves n →
        (ρ.system n).timer.timeoutOccurred = true ∧ ¬ (ρ.system n).isr.InService := by
      rintro ⟨hp, -, hirq⟩
      rw [Timer.irq, Bool.and_eq_true] at hirq
      exact ⟨hirq.1, by simp [TimerIsr.InService, hp]⟩
    have hack : ρ.acknowledges n → (ρ.system n).isr.InService := fun h => Or.inr h.1
    refine ⟨?_, fun h => ?_⟩
    · rw [toNat_pending] at htimeouts ⊢
      rw [Nat.count_succ, Nat.count_succ, Nat.count_succ, htimeouts]
      simp only [misses, timeoutOccurred_succ, inService_succ]
      by_cases hA : ρ.acknowledges n
      -- the flag comes down, and a timeout in this clock is missed
      · have hI := hack hA
        have hS : ¬ ρ.serves n := fun h => (hserves h).2 hI
        simp [hA, hI, hS]
        omega
      by_cases hS : ρ.serves n
      -- the timeout that waits is answered
      · obtain ⟨hF, hI⟩ := hserves hS
        simp [hA, hS, hF, hI]
        omega
      by_cases hI : (ρ.system n).isr.InService
      -- the flag is up until the acknowledgement
      · have hF := hservice hI
        simp [hA, hS, hI, hF]
        omega
      · by_cases hT : ρ.timesOut n <;>
          by_cases hF : (ρ.system n).timer.timeoutOccurred = true <;> simp [hA, hS, hI, hF, hT]
        omega
    · rw [timeoutOccurred_succ]
      rcases inService_succ.mp h with hS | ⟨hI, hA⟩
      · exact ⟨fun hA => (hserves hS).2 (hack hA), Or.inr (hserves hS).1⟩
      · exact ⟨hA, Or.inr (hservice hI)⟩

/-- What the calls of `timer_isr` have done. -/
structure Served (s : TimerSystem) (services : ℕ) : Prop where
  consistent : s.isr.Consistent
  ledState : s.isr.ledState = decide (services % 2 = 1)
  console : s.console ++ s.isr.due = List.replicate (services / 2) TimerIsr.hello

theorem served (ρ : Run) (n : ℕ) : Served (ρ.system n) (Nat.count ρ.serves n) := by
  induction n with
  | zero =>
    rw [Nat.count_zero]
    exact ⟨nofun, rfl, rfl⟩
  | succ n ih =>
    obtain ⟨hcons, hled, hconsole⟩ := ih
    have hisr := isr_succ (ρ := ρ) (n := n)
    have hprint := console_succ (ρ := ρ) (n := n)
    by_cases hgo : ρ.goes n
    · rw [if_pos hgo] at hisr hprint
      by_cases hmain : (ρ.system n).isr.place = .main
      · have hmsg : (ρ.system n).isr.message = [] := by rw [TimerIsr.message, hmain]
        have hdue : (ρ.system n).isr.due = [] := by simp [TimerIsr.due, TimerIsr.InService, hmain]
        rw [hmsg, List.append_nil] at hprint
        rw [hdue, List.append_nil] at hconsole
        by_cases hirq : (ρ.system n).timer.irq = true
        -- a call: the LED toggles, and the message is due if it goes off
        · have hnext : (ρ.system (n + 1)).isr =
              { place := .pio, ledState := !(ρ.system n).isr.ledState } := by
            rw [hisr, TimerIsr.next, hmain]
            exact if_pos hirq
          rw [Nat.count_succ_eq_succ_count_iff.mpr ⟨hmain, hgo, hirq⟩]
          refine ⟨hnext ▸ nofun, by rw [hnext, hled, ← decide_odd_succ], ?_⟩
          rw [hprint, hconsole, hnext, hled]
          rcases Nat.mod_two_eq_zero_or_one (Nat.count ρ.serves n) with hmod | hmod
          · rw [show (Nat.count ρ.serves n + 1) / 2 = Nat.count ρ.serves n / 2 by omega]
            simp [TimerIsr.due, hmod]
          · rw [show (Nat.count ρ.serves n + 1) / 2 = Nat.count ρ.serves n / 2 + 1 by omega,
              List.replicate_succ']
            simp [TimerIsr.due, TimerIsr.InService, hmod]
        · have hnext : (ρ.system (n + 1)).isr = (ρ.system n).isr := by
            rw [hisr, TimerIsr.next, hmain]
            exact if_neg hirq
          rw [Nat.count_succ_eq_count_iff.mpr fun h => hirq h.2.2]
          refine ⟨hnext ▸ hcons, hnext ▸ hled, ?_⟩
          rw [hprint, hnext, hdue, List.append_nil, hconsole]
      · obtain ⟨hled', hcons', hdue⟩ := TimerIsr.next_of_ne_main (ρ.system n).timer.irq hmain hcons
        rw [Nat.count_succ_eq_count_iff.mpr fun h => hmain h.1]
        refine ⟨hisr ▸ hcons', by rw [hisr, hled', hled], ?_⟩
        rw [hprint, hisr, List.append_assoc, hdue, hconsole]
    · rw [if_neg hgo] at hisr hprint
      rw [Nat.count_succ_eq_count_iff.mpr fun h => hgo h.2.1]
      exact ⟨hisr ▸ hcons, hisr ▸ hled, by rw [hprint, hisr, hconsole]⟩

theorem gpio_succ (hother : (ρ.input n).other = none)
    (h : ¬ (ρ.goes n ∧ (ρ.system n).isr.place = .pio)) :
    (ρ.system (n + 1)).gpio = (ρ.system n).gpio := by
  have hgpio : (ρ.system (n + 1)).gpio =
      (ρ.system n).gpio.posedgeClk ((ρ.system n).gpioBus (ρ.input n)) := by
    rw [system_succ]
    rfl
  rw [goes] at h
  rw [hgpio]
  cases hp : (ρ.system n).isr.place <;> cases hgo : (ρ.input n).go <;>
    simp_all [gpioBus, write, TimerIsr.write, Gpio.posedgeClk]

theorem gpio_succ_of_pio (hgo : ρ.goes n) (hp : (ρ.system n).isr.place = .pio) :
    (ρ.system (n + 1)).gpio.dataOut = if (ρ.system n).isr.ledState then 1#2 else 0#2 := by
  have hwrite : (ρ.system n).write (ρ.input n) =
      some (.gpio (if (ρ.system n).isr.ledState then 1#32 else 0#32)) := by
    rw [write, hp, if_neg nofun, if_pos (show (ρ.input n).go = true from hgo), TimerIsr.write, hp]
  rw [system_succ, step, gpioBus, hwrite]
  cases (ρ.system n).isr.ledState <;> rfl

/-- The LED, when no other code writes to the GPIO. -/
theorem dataOut_eq (h : ∀ k < n, (ρ.input k).other = none) (hn : (ρ.system n).isr.place ≠ .pio) :
    (ρ.system n).gpio.dataOut = if (ρ.system n).isr.ledState then 1#2 else 0#2 := by
  induction n with
  | zero => rfl
  | succ n ih =>
    have hisr := isr_succ (ρ := ρ) (n := n)
    by_cases hgo : ρ.goes n
    · rw [if_pos hgo] at hisr
      by_cases hp : (ρ.system n).isr.place = .pio
      · rw [gpio_succ_of_pio hgo hp, hisr, TimerIsr.next, hp]
      · have hled : (ρ.system (n + 1)).isr.ledState = (ρ.system n).isr.ledState := by
          by_cases hmain : (ρ.system n).isr.place = .main
          · rw [hisr, TimerIsr.next, hmain] at hn ⊢
            cases hirq : (ρ.system n).timer.irq
            · rfl
            · rw [hirq] at hn
              exact absurd rfl hn
          · rw [hisr]
            exact (TimerIsr.next_of_ne_main _ hmain (served ρ n).consistent).1
        rw [gpio_succ (h n n.lt_succ_self) fun hc => hp hc.2, hled]
        exact ih (fun k hk => h k (by omega)) hp
    · rw [if_neg hgo] at hisr
      rw [gpio_succ (h n n.lt_succ_self) fun hc => hgo hc.1, hisr]
      exact ih (fun k hk => h k (by omega)) (hisr ▸ hn)

/-- **The accounts of the interrupt**, in every run: with any pauses of the processor and any other
writes to the GPIO. Each call of `timer_isr` answers one timeout, and the timeouts without a call are
the one that waits and those that occur while the last one is not acknowledged or is acknowledged in
this very clock. The variable `led_state` is the parity of the calls, every second call prints the
message, and the LED shows `led_state`, except between the toggle and the write, if no other code
writes to the GPIO. -/
theorem services_accounted (ρ : Run) (n : ℕ) :
    Nat.count ρ.timesOut n =
        Nat.count ρ.serves n + Nat.count ρ.misses n + (ρ.system n).pending.toNat ∧
      (ρ.system n).isr.ledState = decide (Nat.count ρ.serves n % 2 = 1) ∧
      (ρ.system n).console ++ (ρ.system n).isr.due =
        List.replicate (Nat.count ρ.serves n / 2) TimerIsr.hello ∧
      ((∀ k < n, (ρ.input k).other = none) → (ρ.system n).isr.place ≠ .pio →
        (ρ.system n).gpio.dataOut = if (ρ.system n).isr.ledState then 1#2 else 0#2) :=
  ⟨(accounts ρ n).timeouts, (served ρ n).ledState, (served ρ n).console, dataOut_eq⟩

/-! ### A processor that keeps up -/

/-- The processor is outside of `timer_isr`, and no timeout waits. -/
def resting (ρ : Run) (n : ℕ) : Prop :=
  (ρ.system n).isr.place = .main ∧ (ρ.system n).timer.timeoutOccurred = false

/-- A bound on the steps of the processor until it rests. -/
def rank (ρ : Run) (n : ℕ) : ℕ :=
  let wait := if (ρ.system n).timer.timeoutOccurred = true then 4 else 0
  match (ρ.system n).isr.place with
  | .control => 6
  | .register => 1 + wait
  | .main => wait
  | .pio => 3
  | .status => 2
  | .putstr => 1 + wait

theorem undisturbed (h : ¬ ((ρ.system n).isr.place = .control ∧ ρ.goes n)) :
    ρ.timerRun.Undisturbed n := by
  show ((ρ.system n).timerBus (ρ.input n)).controlWrStrobe = false ∧
    ((ρ.system n).timerBus (ρ.input n)).periodLWrStrobe = false ∧
    ((ρ.system n).timerBus (ρ.input n)).periodHWrStrobe = false
  rw [goes] at h
  cases hp : (ρ.system n).isr.place <;> cases hgo : (ρ.input n).go <;>
    cases ho : (ρ.input n).other <;>
    simp_all [timerBus, write, TimerIsr.write, Timer.Inputs.controlWrStrobe,
      Timer.Inputs.periodLWrStrobe, Timer.Inputs.periodHWrStrobe]

/-- The timer before it is started. -/
structure Fresh (m : Timer) : Prop where
  forceReload : m.forceReload = false
  counterIsRunning : m.counterIsRunning = false
  counterLoadValue : m.counterLoadValue.toNat = 24999999
  internalCounter : m.internalCounter.toNat = 24999999
  timeoutOccurred : m.timeoutOccurred = false

theorem fresh_reset : Fresh {} := ⟨rfl, rfl, by decide, by decide, rfl⟩

theorem Fresh.not_timesOut (h : Fresh (ρ.system n).timer) : ¬ ρ.timesOut n := by
  intro ht
  rw [timesOut, Timer.Run.TimesOut, timerRun_timer, Timer.timeoutEvent, Bool.and_eq_true,
    Timer.Run.counterIsZero_iff, h.internalCounter] at ht
  omega

section Started

variable {s₀ : ℕ} (hidle : ∀ k < s₀, ¬ ρ.goes k) (hstart : ρ.goes s₀)

include hidle in
/-- Before the start nothing happens. -/
theorem before_start (hn : n ≤ s₀) :
    (ρ.system n).isr = {} ∧ Fresh (ρ.system n).timer := by
  induction n with
  | zero => exact ⟨rfl, fresh_reset⟩
  | succ n ih =>
    obtain ⟨hisr, hfresh⟩ := ih (by omega)
    have hgo := hidle n (by omega)
    have hreload : (ρ.timerRun.timer n).forceReload = false := by
      rw [timerRun_timer]
      exact hfresh.forceReload
    obtain ⟨hreload', -, hload', -, hrun', hcount'⟩ :=
      Timer.Run.undisturbed_succ hreload (undisturbed fun hc => hgo hc.2)
    rw [timerRun_timer, timerRun_timer] at hrun' hload' hcount'
    rw [timerRun_timer] at hreload'
    rw [hfresh.counterIsRunning, Bool.false_and] at hrun'
    rw [hfresh.counterIsRunning, if_neg Bool.false_ne_true] at hcount'
    refine ⟨?_, hreload', hrun', ?_, ?_, ?_⟩
    · rw [isr_succ, if_neg hgo, hisr]
    · rw [hload', hfresh.counterLoadValue]
    · rw [hcount', hfresh.internalCounter]
    · rw [← Bool.not_eq_true, timeoutOccurred_succ]
      rintro ⟨-, ht | hflag⟩
      · exact hfresh.not_timesOut ht
      · rw [hfresh.timeoutOccurred] at hflag
        cases hflag

include hidle hstart

/-- The start of the timer. -/
theorem at_start : (ρ.system (s₀ + 1)).isr.place = .register ∧
    (ρ.system (s₀ + 1)).timer.timeoutOccurred = false ∧
    Timer.Run.Ticking (ρ.system (s₀ + 1)).timer ∧
    (ρ.system (s₀ + 1)).timer.controlInterruptEnable = true ∧
    (ρ.system (s₀ + 1)).timer.counterLoadValue.toNat = 24999999 ∧
    (ρ.system (s₀ + 1)).timer.internalCounter.toNat = 24999999 := by
  obtain ⟨hisr, hfresh⟩ := before_start hidle le_rfl
  have hgo : (ρ.input s₀).go = true := hstart
  have hbus : (ρ.system s₀).timerBus (ρ.input s₀) =
      { address := 1#3, chipselect := true, writeN := false, writedata := 7#16 } := by
    simp [timerBus, write, TimerIsr.write, hisr, hgo, timerControlStartMsk, timerControlContMsk,
      timerControlItoMsk]
  have htimer : (ρ.system (s₀ + 1)).timer = (ρ.system s₀).timer.posedgeClk
      { address := 1#3, chipselect := true, writeN := false, writedata := 7#16 } := by
    rw [system_succ, step, hbus]
  have hctrl : (ρ.system (s₀ + 1)).timer.controlRegister = 7#4 := by
    rw [htimer]
    rfl
  refine ⟨?_, ?_, ⟨?_, ?_, ?_⟩, ?_, ?_, ?_⟩
  · rw [isr_succ, if_pos hstart, hisr, TimerIsr.next]
  · rw [← Bool.not_eq_true, timeoutOccurred_succ, hfresh.timeoutOccurred]
    rintro ⟨-, ht | hflag⟩
    · exact hfresh.not_timesOut ht
    · cases hflag
  · rw [htimer]
    rfl
  · rw [htimer]
    rfl
  · rw [Timer.controlContinuous, hctrl]
    rfl
  · rw [Timer.controlInterruptEnable, hctrl]
    rfl
  · rw [htimer, Timer.counterLoadValue]
    exact hfresh.counterLoadValue
  · rw [htimer, Timer.posedgeClk, hfresh.counterIsRunning, hfresh.forceReload]
    exact hfresh.internalCounter

theorem place_ne_control (hn : s₀ < n) : (ρ.system n).isr.place ≠ .control := by
  induction n, hn using Nat.le_induction with
  | base =>
    rw [(at_start hidle hstart).1]
    exact nofun
  | succ n hn ih =>
    rw [isr_succ]
    split
    · exact TimerIsr.next_place_ne_control _ ih
    · exact ih

theorem undisturbed_of_lt (hn : s₀ < n) : ρ.timerRun.Undisturbed n :=
  undisturbed fun h => place_ne_control hidle hstart hn h.1

theorem ticking (hn : s₀ < n) : Timer.Run.Ticking (ρ.timerRun.timer n) := by
  have ha := (at_start hidle hstart).2.2.1
  rw [← timerRun_timer] at ha
  exact (ha.internalCounter_eq hn fun k hk _ => undisturbed_of_lt hidle hstart hk).1

theorem irq_eq (hn : s₀ < n) :
    (ρ.system n).timer.irq = (ρ.system n).timer.timeoutOccurred := by
  have henable : (ρ.system n).timer.controlInterruptEnable = true := by
    induction n, hn using Nat.le_induction with
    | base => exact (at_start hidle hstart).2.2.2.1
    | succ n hn ih =>
      obtain ⟨-, hctrl, -⟩ := Timer.Run.undisturbed_succ (ticking hidle hstart hn).forceReload
        (undisturbed_of_lt hidle hstart hn)
      rw [timerRun_timer, timerRun_timer] at hctrl
      rw [Timer.controlInterruptEnable, hctrl]
      exact ih
  rw [Timer.irq, henable, Bool.and_true]

/-- Timeouts occur every half a second. -/
theorem timesOut_iff : ρ.timesOut n ↔ ∃ j, n = s₀ + 25000000 * (j + 1) := by
  obtain ⟨-, -, htick, -, hload, hcount⟩ := at_start hidle hstart
  rw [← timerRun_timer] at htick hload hcount
  rcases lt_or_ge (s₀ + 1) n with hn | hn
  · rw [timesOut, htick.timesOut_iff (hload ▸ by omega)
      (fun k hk _ => undisturbed_of_lt hidle hstart hk) hn le_rfl, hload, hcount]
    refine exists_congr fun j => ?_
    omega
  · refine iff_of_false ?_ fun ⟨j, hj⟩ => by omega
    rcases hn.eq_or_lt with rfl | hlt
    · intro ht
      rw [timesOut, Timer.Run.TimesOut, Timer.timeoutEvent, Bool.and_eq_true,
        Timer.Run.counterIsZero_iff, hcount] at ht
      omega
    · exact (before_start hidle (by omega)).2.not_timesOut

/-- A step of the processor brings it closer to its rest. -/
theorem rank_step (hn : s₀ < n) (hquiet : ¬ ρ.timesOut n) (hrest : ¬ ρ.resting n) :
    ρ.rank (n + 1) + (if ρ.goes n then 1 else 0) ≤ ρ.rank n := by
  have hisr := isr_succ (ρ := ρ) (n := n)
  have hflag : (ρ.system (n + 1)).timer.timeoutOccurred = true ↔
      ¬ ρ.acknowledges n ∧ (ρ.system n).timer.timeoutOccurred = true := by
    rw [timeoutOccurred_succ, or_iff_right hquiet]
  by_cases hgo : ρ.goes n
  · rw [if_pos hgo] at hisr ⊢
    have hack : ρ.acknowledges n ↔ (ρ.system n).isr.place = .status := and_iff_left hgo
    rw [hack] at hflag
    unfold rank
    simp only [hflag, hisr, irq_eq hidle hstart hn]
    cases hp : (ρ.system n).isr.place with
    | control => exact absurd hp (place_ne_control hidle hstart hn)
    | main =>
      have hF : (ρ.system n).timer.timeoutOccurred = true :=
        Bool.of_not_eq_false fun hF => hrest ⟨hp, hF⟩
      simp [TimerIsr.next, hp, hF]
    | status => cases hled : (ρ.system n).isr.ledState <;> simp [TimerIsr.next, hp, hled]
    | register => simp [TimerIsr.next, hp, Nat.add_comm]
    | pio => simp [TimerIsr.next, hp]
    | putstr => simp [TimerIsr.next, hp, Nat.add_comm]
  · have hack : ¬ ρ.acknowledges n := fun h => hgo h.2
    rw [if_neg hgo] at hisr ⊢
    unfold rank
    simp [hflag, hisr, hack]

theorem activeRanking {a b : ℕ} (ha : s₀ < a)
    (hquiet : ∀ k, a ≤ k → k < a + b → ¬ ρ.timesOut k) :
    ActiveRanking (fun m => ρ.rank (a + m)) (fun m => ρ.goes (a + m))
      (fun m => ρ.resting (a + m)) b where
  goal_of_zero m hm := by
    unfold rank at hm
    cases hp : (ρ.system (a + m)).isr.place <;> rw [hp] at hm <;> simp at hm
    exact ⟨hp, hm⟩
  goal_succ m hm h := by
    have hisr := isr_succ (ρ := ρ) (n := a + m)
    obtain ⟨hmain, hF⟩ := h
    rw [TimerIsr.next, hmain, irq_eq hidle hstart (by omega), hF] at hisr
    refine ⟨?_, ?_⟩
    · rw [← Nat.add_assoc, hisr]
      split <;> exact hmain
    · rw [← Nat.add_assoc, ← Bool.not_eq_true, timeoutOccurred_succ, hF]
      rintro ⟨-, ht | hF'⟩
      · exact hquiet (a + m) (by omega) (by omega) ht
      · cases hF'
  rests m hm h := by
    have := rank_step hidle hstart (by omega : s₀ < a + m) (hquiet _ (by omega) (by omega)) h
    exact (Nat.le_add_right _ _).trans this
  drops m hm h hgo := by
    have := rank_step hidle hstart (by omega : s₀ < a + m) (hquiet _ (by omega) (by omega)) h
    rw [if_pos hgo] at this
    exact this

/-- What holds once the processor had enough steps and no timeout has occurred. -/
theorem resting_of_window {a b D : ℕ} (ha : s₀ < a)
    (hrank : ρ.rank a ≤ Nat.count (fun m => ρ.goes (a + m)) D)
    (hquiet : ∀ k, a ≤ k → k < b → ¬ ρ.timesOut k) (hn : a + D ≤ n) (hnb : n ≤ b) :
    ρ.resting n ∧ Nat.count ρ.timesOut n = Nat.count ρ.timesOut a ∧
      Nat.count ρ.misses n = Nat.count ρ.misses a := by
  obtain ⟨d, rfl⟩ := Nat.exists_eq_add_of_le (show a ≤ n by omega)
  refine ⟨?_, ?_, ?_⟩
  · have hrank' := activeRanking hidle hstart ha (b := d) fun k hk hk' => hquiet k hk (by omega)
    exact hrank'.goal_of_count le_rfl (hrank.trans (Nat.count_monotone _ (by omega)))
  · have hzero : Nat.count (fun k => ρ.timesOut (a + k)) d = 0 :=
      Nat.count_of_forall_not fun k hk => hquiet _ (by omega) (by omega)
    rw [Nat.count_add, hzero, Nat.add_zero]
  · have hzero : Nat.count (fun k => ρ.misses (a + k)) d = 0 :=
      Nat.count_of_forall_not fun k hk h => hquiet _ (by omega) (by omega) h.1
    rw [Nat.count_add, hzero, Nat.add_zero]

theorem not_timesOut {j k : ℕ} (hk : s₀ + 25000000 * j < k) (hk' : k < s₀ + 25000000 * (j + 1)) :
    ¬ ρ.timesOut k := by
  intro ht
  obtain ⟨l, rfl⟩ := (timesOut_iff hidle hstart).mp ht
  omega

/-- A processor that takes its steps in time rests before each timeout. -/
theorem resting_of_pace {D : ℕ}
    (hpace : ∀ k, s₀ < k → 4 ≤ Nat.count (fun m => ρ.goes (k + m)) D) (j : ℕ)
    (hn : s₀ + 25000000 * j + 1 + D ≤ n) (hn' : n ≤ s₀ + 25000000 * (j + 1)) :
    ρ.resting n ∧ Nat.count ρ.timesOut n = j ∧ Nat.count ρ.misses n = 0 := by
  induction j generalizing n with
  | zero =>
    obtain ⟨hplace, hflag, -⟩ := at_start hidle hstart
    have hrank : ρ.rank (s₀ + 1) ≤ 4 := by simp [rank, hplace, hflag]
    have hnone : ∀ k < s₀ + 1, ¬ ρ.timesOut k := by
      intro k hk ht
      obtain ⟨l, rfl⟩ := (timesOut_iff hidle hstart).mp ht
      omega
    obtain ⟨hrest, htimeouts, hmisses⟩ := resting_of_window hidle hstart s₀.lt_succ_self
      (hrank.trans (hpace _ s₀.lt_succ_self))
      (fun k hk hk' => not_timesOut hidle hstart (j := 0) (by omega) hk') (by omega) hn'
    refine ⟨hrest, ?_, ?_⟩
    · rw [htimeouts, Nat.count_of_forall_not hnone]
    · rw [hmisses, Nat.count_of_forall_not fun k hk h => hnone k hk h.1]
  | succ j ih =>
    obtain ⟨t, ht⟩ : ∃ t, t = s₀ + 25000000 * (j + 1) := ⟨_, rfl⟩
    obtain ⟨⟨hmain, hF⟩, htimeouts, hmisses⟩ := ih (n := t) (by omega) ht.le
    have htimeout : ρ.timesOut t := (timesOut_iff hidle hstart).mpr ⟨j, ht⟩
    have hack : ¬ ρ.acknowledges t := by
      rintro ⟨hp, -⟩
      rw [hmain] at hp
      cases hp
    have hmiss : ¬ ρ.misses t := by
      rintro ⟨-, hF' | hA⟩
      · rw [hF] at hF'
        cases hF'
      · exact hack hA
    -- the timeout finds the processor at rest, and raises the flag
    have hrank : ρ.rank (t + 1) = 4 := by
      have hF' : (ρ.system (t + 1)).timer.timeoutOccurred = true :=
        timeoutOccurred_succ.mpr ⟨hack, Or.inl htimeout⟩
      have hmain' : (ρ.system (t + 1)).isr.place = .main := by
        rw [isr_succ, TimerIsr.next, hmain, irq_eq hidle hstart (by omega), hF]
        split <;> exact hmain
      simp [rank, hF', hmain']
    obtain ⟨hrest, htimeouts', hmisses'⟩ := resting_of_window hidle hstart (by omega)
      (hrank ▸ hpace (t + 1) (by omega))
      (fun k hk hk' => not_timesOut hidle hstart (j := j + 1) (by omega) hk')
      (show t + 1 + D ≤ n by omega) hn'
    refine ⟨hrest, ?_, ?_⟩
    · rw [htimeouts', Nat.count_succ_eq_succ_count_iff.mpr htimeout, htimeouts]
    · rw [hmisses', Nat.count_succ_eq_count_iff.mpr hmiss, hmisses]

end Started

/-- **The LED and the messages**, when the timer is started at `s₀` and the processor takes four steps
in any `D` clocks from then on. No timeout is missed: once the timeout number `j` is `D` clocks old and
until the next one occurs, `timer_isr` has been called `j + 1` times, and its message has been printed
`(j + 1) / 2` times. So the LED toggles every half a second, and a message comes with every second
toggle. -/
theorem blinks (ρ : Run) (s₀ D : ℕ) (hidle : ∀ k < s₀, ¬ ρ.goes k) (hstart : ρ.goes s₀)
    (hpace : ∀ k, s₀ < k → 4 ≤ Nat.count (fun m => ρ.goes (k + m)) D)
    (j n : ℕ) (hn : s₀ + 25000000 * (j + 1) + D < n) (hn' : n ≤ s₀ + 25000000 * (j + 2)) :
    Nat.count ρ.serves n = j + 1 ∧ Nat.count ρ.misses n = 0 ∧
      (ρ.system n).isr.ledState = decide ((j + 1) % 2 = 1) ∧
      (ρ.system n).console = List.replicate ((j + 1) / 2) TimerIsr.hello ∧
      ((∀ k < n, (ρ.input k).other = none) →
        (ρ.system n).gpio.dataOut = if (j + 1) % 2 = 1 then 1#2 else 0#2) := by
  obtain ⟨⟨hmain, hF⟩, htimeouts, hmisses⟩ :=
    resting_of_pace hidle hstart hpace (j + 1) (n := n) (by omega) hn'
  have hserves : Nat.count ρ.serves n = j + 1 := by
    have hacc := (accounts ρ n).timeouts
    rw [htimeouts, hmisses, pending, hF, Bool.false_and] at hacc
    exact hacc.symm
  obtain ⟨-, hled, hconsole⟩ := served ρ n
  have hdue : (ρ.system n).isr.due = [] := by simp [TimerIsr.due, TimerIsr.InService, hmain]
  rw [hserves] at hled hconsole
  rw [hdue, List.append_nil] at hconsole
  refine ⟨hserves, hmisses, hled, hconsole, fun hother => ?_⟩
  rw [dataOut_eq hother (by rw [hmain]; exact nofun), hled]
  simp

/-- The run in which the processor never pauses. -/
def eager : Run where
  input := fun _ => { go := true }

theorem blinks_eager : (eager.system 25000005).isr.ledState = true :=
  (blinks eager 0 4 (fun k hk => by omega) rfl
    (fun k _ => (Nat.count_of_forall fun m _ => rfl).ge) 0 25000005 (by omega) (by omega)).2.2.1

end Run

end TimerSystem

end ADS131A0X
