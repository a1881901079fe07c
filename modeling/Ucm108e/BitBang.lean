import Mathlib
import Ucm108e.Bytes
import Ucm108e.Serial

/-!
The bit-banged SPI master of `drv_spi.c`: `software_spi_init`, `software_spi_rw` and
`software_spi_spixfer`, down to the levels of the pins. In each of the four modes the
slave samples the bytes sent, and the master reads the bits that the slave presents.
-/
namespace Ucm108e.BitBang
open Ucm108e.Bytes Ucm108e.Serial
set_option linter.unusedSimpArgs false

/-! ### Pins -/

/-- The levels that the driver sets; the chip selects by their pin. -/
structure Pins where
  sck : Bool
  mosi : Bool
  cs : Nat → Bool

/-- The statics of the driver, the levels of the pins, and the earlier ones, the last
    first. -/
structure World where
  software_spi_cpol : Bool
  software_spi_cpha : Bool
  pins : Pins
  past : List Pins

def World.history (w : World) : List Pins := w.pins :: w.past

/-- The pins have these levels from now on. -/
def World.drive (w : World) (pins : Pins) : World := { w with pins := pins, past := w.history }

/-- The output pins of the driver. -/
inductive Line where
  | sck
  | mosi
  | cs (pin : Nat)

/-- The two functions that the driver calls and that are not part of the sources: the levels after a pin has
    been set, and what is returned for a pin that has a level. -/
structure Hal where
  set_gpio_pin_value : Pins → Line → Bool → Pins
  get_gpio_pin_value : Bool → Bool

/-- They drive and sample the pin, and nothing else. -/
structure Hal.Documented (hal : Hal) : Prop where
  sck : ∀ pins level, hal.set_gpio_pin_value pins .sck level = { pins with sck := level }
  mosi : ∀ pins level, hal.set_gpio_pin_value pins .mosi level = { pins with mosi := level }
  cs : ∀ pins pin level,
    hal.set_gpio_pin_value pins (.cs pin) level = { pins with cs := fun i => if i = pin then level else pins.cs i }
  get : ∀ level, hal.get_gpio_pin_value level = level

section
variable (hal : Hal)

/-- `SCK_H` and `SCK_L`. -/
def SCK (level : Bool) (w : World) : World := w.drive (hal.set_gpio_pin_value w.pins .sck level)

/-- `MOSI_H` and `MOSI_L`. -/
def MOSI (level : Bool) (w : World) : World := w.drive (hal.set_gpio_pin_value w.pins .mosi level)

def CS (pin : Nat) (level : Bool) (w : World) : World := w.drive (hal.set_gpio_pin_value w.pins (.cs pin) level)

def MISO (slave : Slave Pins) (w : World) : Bool := hal.get_gpio_pin_value (slave.miso w.history)

/-- The pins keep their levels while time passes. -/
def software_delay (w : World) : World := w.drive w.pins

/-! ### The driver -/

def RT_SPI_CPHA : UInt8 := (1 : UInt8) <<< 0
def RT_SPI_CPOL : UInt8 := (1 : UInt8) <<< 1

def CPOL (mode : UInt8) : Bool := mode &&& RT_SPI_CPOL != 0
def CPHA (mode : UInt8) : Bool := mode &&& RT_SPI_CPHA != 0

def software_spi_init (mode : UInt8) (w : World) : World :=
  let w := { w with software_spi_cpol := false, software_spi_cpha := false }
  let w := if mode &&& RT_SPI_CPOL != 0 then SCK hal true { w with software_spi_cpol := true } else SCK hal false w
  let w := if mode &&& RT_SPI_CPHA != 0 then { w with software_spi_cpha := true } else w
  MOSI hal true w

/-- The variables of `software_spi_rw`. -/
structure Locals where
  world : World
  write_dat : UInt8
  read_dat : UInt8

/-- A turn of the loop of `software_spi_rw`. -/
def turn (slave : Slave Pins) (s : Locals) : Locals :=
  let w := if s.world.software_spi_cpha then SCK hal (if s.world.software_spi_cpol then false else true) s.world else s.world
  let w := MOSI hal (s.write_dat &&& 0x80 != 0) w
  let write_dat := s.write_dat <<< 1
  let w := software_delay w
  let w := if w.software_spi_cpha = w.software_spi_cpol then SCK hal true w else SCK hal false w
  let read_dat := s.read_dat <<< 1
  let read_dat := if MISO hal slave w then read_dat+1 else read_dat
  let w := software_delay w
  let w := if !w.software_spi_cpha then SCK hal w.software_spi_cpol w else w
  ⟨w,write_dat,read_dat⟩

def turns (slave : Slave Pins) : Nat → Locals → Locals
  | 0, s => s
  | i+1, s => turns slave i (turn hal slave s)

def software_spi_rw (slave : Slave Pins) (write_dat : UInt8) (w : World) : World × UInt8 :=
  let s := turns hal slave 8 ⟨SCK hal w.software_spi_cpol w,write_dat,0⟩
  (s.world,s.read_dat)

/-- A message, with the pin that selects its device. -/
structure Message where
  GPIO_Pin : Nat
  length : Nat
  send_buf : Option Mem
  recv_buf : Option Mem
  cs_take : Bool
  cs_release : Bool

/-- The loops over the bytes of a message. -/
def transfer (slave : Slave Pins) (dat : Mem) (n : Nat) (w : World) (recv_buf : Option Mem) : World × Option Mem :=
  (List.range n).foldl (fun (w,recv_buf) index =>
    let (w,read_dat) := software_spi_rw hal slave (dat index) w
    (w,recv_buf.map fun m => store m index [read_dat])) (w,recv_buf)

/-- The slave is selected. -/
def taken (message : Message) (w : World) : World := if message.cs_take then CS hal message.GPIO_Pin false w else w

/-- The levels, the buffer and the result of a message. With neither buffer there is
    none to store the bytes in. -/
def software_spi_spixfer (slave : Slave Pins) (message : Message) (w : World) : World × Option Mem × Nat :=
  let w := taken hal message w
  let (w,recv_buf) := match message.send_buf, message.recv_buf with
    | some send_buf, some recv_buf => transfer hal slave send_buf message.length w (some recv_buf)
    | some send_buf, none => transfer hal slave send_buf message.length w none
    | none, recv_buf => transfer hal slave (fun _ => 0xff) message.length w recv_buf
  let w := if message.cs_release then CS hal message.GPIO_Pin true w else w
  (w,recv_buf,message.length)
end

/-! ### The clock -/

/-- The sampling edge of a mode: the first edge of each cycle of the clock, away from
    its idle level, or the second one, back to it. -/
def sampling (cpol cpha : Bool) : Sampling Pins := ⟨Pins.sck,Pins.mosi,if cpha then cpol else !cpol⟩

def World.sampling (w : World) : Sampling Pins := BitBang.sampling w.software_spi_cpol w.software_spi_cpha

/-- SCK has its idle level. -/
def Idle (w : World) : Prop := w.pins.sck = w.software_spi_cpol

/-- The driver has set pins, with these bits for the slave to sample. -/
structure Driven (w w' : World) (out : List Bool) : Prop where
  cpol : w'.software_spi_cpol = w.software_spi_cpol
  cpha : w'.software_spi_cpha = w.software_spi_cpha
  cs : w'.pins.cs = w.pins.cs
  onward : Onward (fun pins => pins.cs = w.pins.cs) w.history w'.history
  sampled : w.sampling.sampled w'.history = w.sampling.sampled w.history ++ out

namespace Driven
variable {w w' w'' : World} {out more : List Bool}

theorem refl (w : World) : Driven w w [] := ⟨rfl,rfl,rfl,.refl _ _,by simp⟩

theorem sampling (driven : Driven w w' out) : w'.sampling = w.sampling := by
  rw [World.sampling,World.sampling,driven.cpol,driven.cpha]

theorem trans (first : Driven w w' out) (second : Driven w' w'' more) : Driven w w'' (out ++ more) where
  cpol := second.cpol.trans first.cpol
  cpha := second.cpha.trans first.cpha
  cs := second.cs.trans first.cs
  onward := by
    have further := second.onward
    rw [first.cs] at further
    exact first.onward.trans further
  sampled := by
    have bits := second.sampled
    rw [first.sampling,first.sampled] at bits
    rw [bits,List.append_assoc]

/-- Nothing more is sampled. -/
theorem silent (first : Driven w w' out) (second : Driven w' w'' []) : Driven w w'' out := by
  have whole := first.trans second
  rwa [List.append_nil] at whole

end Driven

section
variable {hal : Hal}

theorem drive_driven {w : World} {pins : Pins} (cs : pins.cs = w.pins.cs) (other : w.sampling.edge w.pins pins = false) :
    Driven w (w.drive pins) [] where
  cpol := rfl
  cpha := rfl
  cs := cs
  onward := (Onward.refl _ _).step cs
  sampled := by
    rw [List.append_nil]
    exact w.sampling.sampled_other w.past other

theorem MOSI_driven (documented : hal.Documented) (level : Bool) (w : World) : Driven w (MOSI hal level w) [] := by
  rw [MOSI,documented.mosi]
  exact drive_driven rfl (w.sampling.edge_same rfl)

theorem software_delay_driven (w : World) : Driven w (software_delay w) [] := drive_driven rfl (w.sampling.edge_same rfl)

theorem SCK_eq (documented : hal.Documented) (level : Bool) (w : World) :
    SCK hal level w = w.drive { w.pins with sck := level } := by
  rw [SCK,documented.sck]

/-- Away from the level of the sampling edge no bit is sampled. -/
theorem SCK_driven (documented : hal.Documented) {w : World} {level : Bool} (other : level ≠ w.sampling.level) :
    Driven w (SCK hal level w) [] := by
  rw [SCK_eq documented]
  refine drive_driven rfl (Bool.eq_false_iff.mpr fun edge => ?_)
  exact other (w.sampling.edge_iff.mp edge).2

theorem SCK_same (documented : hal.Documented) {w : World} {level : Bool} (same : level = w.pins.sck) :
    Driven w (SCK hal level w) [] := by
  rw [SCK_eq documented]
  exact drive_driven rfl (w.sampling.edge_same same)

theorem SCK_samples (documented : hal.Documented) {w : World} (other : w.pins.sck ≠ w.sampling.level) :
    Driven w (SCK hal w.sampling.level w) [w.pins.mosi] := by
  rw [SCK_eq documented]
  exact ⟨rfl,rfl,rfl,(Onward.refl _ _).step rfl,w.sampling.sampled_edge w.past (w.sampling.edge_iff.mpr ⟨other,rfl⟩)⟩

/-! ### Bits -/

/-- Where a turn is before it makes the sampling edge. -/
def presented (hal : Hal) (s : Locals) : World :=
  software_delay (MOSI hal (s.write_dat &&& 0x80 != 0)
    (if s.world.software_spi_cpha then SCK hal (if s.world.software_spi_cpol then false else true) s.world else s.world))

/-- Where a turn reads the line. -/
def clocked (hal : Hal) (s : Locals) : World := SCK hal s.world.sampling.level (presented hal s)

theorem presented_driven (documented : hal.Documented) {s : Locals} (idle : Idle s.world) :
    Driven s.world (presented hal s) [] ∧ (presented hal s).pins.sck ≠ s.world.sampling.level
      ∧ (presented hal s).pins.mosi = (s.write_dat &&& 0x80 != 0) := by
  obtain ⟨⟨cpol,cpha,⟨sck,mosi,cs⟩,past⟩,write_dat,read_dat⟩ := s
  obtain rfl : sck = cpol := idle
  cases cpha with
  | false =>
    refine ⟨(MOSI_driven documented _ _).silent (software_delay_driven _),?_,?_⟩
    · simp [presented,MOSI,documented.mosi,software_delay,World.drive,World.sampling,sampling]
    · simp [presented,MOSI,documented.mosi,software_delay,World.drive]
  | true =>
    have leading : Driven ⟨sck,true,⟨sck,mosi,cs⟩,past⟩
        (SCK hal (if sck then false else true) ⟨sck,true,⟨sck,mosi,cs⟩,past⟩) [] := by
      refine SCK_driven documented ?_
      cases sck <;> simp [World.sampling,sampling]
    refine ⟨(leading.silent (MOSI_driven documented _ _)).silent (software_delay_driven _),?_,?_⟩
    · cases sck <;>
        simp [presented,SCK_eq documented,MOSI,documented.mosi,software_delay,World.drive,World.sampling,sampling]
    · simp [presented,MOSI,documented.mosi,software_delay,World.drive]

theorem turn_world (slave : Slave Pins) (s : Locals) : (turn hal slave s).world
    = if !s.world.software_spi_cpha then SCK hal s.world.software_spi_cpol (software_delay (clocked hal s))
      else software_delay (clocked hal s) := by
  obtain ⟨⟨cpol,cpha,⟨sck,mosi,cs⟩,past⟩,write_dat,read_dat⟩ := s
  cases cpol <;> cases cpha <;> rfl

theorem turn_read (slave : Slave Pins) (s : Locals) :
    (turn hal slave s).read_dat = shiftIn s.read_dat (MISO hal slave (clocked hal s)) := by
  obtain ⟨⟨cpol,cpha,⟨sck,mosi,cs⟩,past⟩,write_dat,read_dat⟩ := s
  cases cpol <;> cases cpha <;> rfl

theorem clocked_driven (documented : hal.Documented) {s : Locals} (idle : Idle s.world) :
    Driven s.world (clocked hal s) [s.write_dat &&& 0x80 != 0] ∧ (clocked hal s).pins.sck = s.world.sampling.level := by
  obtain ⟨driven,away,mosi⟩ := presented_driven documented idle
  have edge := SCK_samples documented (by rw [driven.sampling]; exact away)
  rw [driven.sampling,mosi] at edge
  exact ⟨driven.trans edge,by rw [clocked,SCK_eq documented]; rfl⟩

theorem sampling_level (w : World) :
    w.sampling.level = if w.software_spi_cpha then w.software_spi_cpol else !w.software_spi_cpol := rfl

/-- A turn takes the clock from its idle level back to it, with one bit to sample. -/
theorem turn_driven (documented : hal.Documented) (slave : Slave Pins) {s : Locals} (idle : Idle s.world) :
    Driven s.world (turn hal slave s).world [s.write_dat &&& 0x80 != 0] ∧ Idle (turn hal slave s).world := by
  obtain ⟨clock,level⟩ := clocked_driven documented idle
  have waited := clock.silent (software_delay_driven (clocked hal s))
  rw [turn_world]
  by_cases cpha : s.world.software_spi_cpha = true
  · rw [if_neg (by simp [cpha])]
    refine ⟨waited,?_⟩
    -- the sampling edge has gone back to the idle level
    rw [Idle,waited.cpol]
    exact level.trans ((sampling_level s.world).trans (if_pos cpha))
  · rw [if_pos (by simp [cpha])]
    have back : Driven (software_delay (clocked hal s)) (SCK hal s.world.software_spi_cpol (software_delay (clocked hal s))) [] := by
      refine SCK_driven documented ?_
      rw [waited.sampling,sampling_level,if_neg cpha]
      simp
    have whole := waited.silent back
    refine ⟨whole,?_⟩
    rw [Idle,whole.cpol,SCK_eq documented]
    rfl

/-- On the way through a message, with a slave that has followed the clock since its
    start. -/
structure Served (slave : Slave Pins) (selected : Pins → Prop) (start : List Pins) (w : World) : Prop where
  follows : Follows w.sampling selected start slave
  onward : Onward selected start w.history
  still : ∀ pins, pins.cs = w.pins.cs → selected pins

variable {slave : Slave Pins} {selected : Pins → Prop} {start : List Pins} {w : World}

theorem Served.driven {w' : World} {out : List Bool} (served : Served slave selected start w) (driven : Driven w w' out) :
    Served slave selected start w' where
  follows := driven.sampling ▸ served.follows
  onward := by
    obtain ⟨during,history,kept⟩ := driven.onward
    exact served.onward.trans ⟨during,history,fun pins member => served.still pins (kept pins member)⟩
  still := fun pins same => served.still pins (same.trans driven.cs)

/-- A turn reads the bit that the slave presents for the sampling edge. -/
theorem turn_reads (documented : hal.Documented) {s : Locals} (idle : Idle s.world)
    (served : Served slave selected start s.world) :
    (turn hal slave s).read_dat = shiftIn s.read_dat (slave.next (s.world.sampling.sampled s.world.history)) := by
  obtain ⟨driven,away,_⟩ := presented_driven documented idle
  obtain ⟨follows,onward,still⟩ := served.driven driven
  have line : clocked hal s = (presented hal s).drive { (presented hal s).pins with sck := s.world.sampling.level } :=
    SCK_eq documented _ _
  have selects : selected (clocked hal s).pins := by
    rw [line]
    exact still _ rfl
  have edge : (presented hal s).sampling.edge (presented hal s).pins (clocked hal s).pins = true := by
    rw [driven.sampling,line]
    exact s.world.sampling.edge_iff.mpr ⟨away,rfl⟩
  have read : MISO hal slave (clocked hal s) = slave.next ((presented hal s).sampling.sampled (presented hal s).history) :=
    (documented.get _).trans ((follows.holds onward selects edge).trans (follows.presents onward selects edge))
  rw [turn_read,read,driven.sampling,driven.sampled,List.append_nil]

/-! ### Bytes -/

theorem turns_driven (documented : hal.Documented) (slave : Slave Pins) (n : Nat) : ∀ {s : Locals}, Idle s.world →
    Driven s.world (turns hal slave n s).world (shiftOut n s.write_dat) ∧ Idle (turns hal slave n s).world := by
  induction n with
  | zero =>
    intro s idle
    exact ⟨.refl _,idle⟩
  | succ n ih =>
    intro s idle
    obtain ⟨now,idle_now⟩ := turn_driven documented slave idle
    obtain ⟨later,idle_later⟩ := ih idle_now
    exact ⟨now.trans later,idle_later⟩

theorem turns_reads (documented : hal.Documented) (n : Nat) : ∀ {s : Locals}, Idle s.world → Served slave selected start s.world →
    (turns hal slave n s).read_dat
      = (answers slave.next (s.world.sampling.sampled s.world.history) (shiftOut n s.write_dat)).foldl shiftIn
        s.read_dat := by
  induction n with
  | zero =>
    intro s _ _
    rfl
  | succ n ih =>
    intro s idle served
    obtain ⟨now,idle_now⟩ := turn_driven documented slave idle
    rw [turns,ih idle_now (served.driven now),now.sampling,now.sampled,turn_reads documented idle served]
    rfl

theorem SCK_idle (documented : hal.Documented) (w : World) : Idle (SCK hal w.software_spi_cpol w) := by
  rw [SCK_eq documented]
  rfl

/-- The clock is idle before and after a byte, and the byte's bits are there to sample. -/
theorem software_spi_rw_driven (documented : hal.Documented) (slave : Slave Pins) (write_dat : UInt8) (idle : Idle w) :
    Driven w (software_spi_rw hal slave write_dat w).1 (bits write_dat) ∧ Idle (software_spi_rw hal slave write_dat w).1 := by
  have ready : Driven w (SCK hal w.software_spi_cpol w) [] := SCK_same documented idle.symm
  obtain ⟨driven,idle_after⟩ := turns_driven documented slave 8 (s := ⟨SCK hal w.software_spi_cpol w,write_dat,0⟩) (SCK_idle documented w)
  rw [shiftOut_eq] at driven
  exact ⟨ready.trans driven,idle_after⟩

/-- The byte read is made of the slave's bits. -/
theorem software_spi_rw_reads (documented : hal.Documented) (write_dat : UInt8) (idle : Idle w) (served : Served slave selected start w) :
    bits (software_spi_rw hal slave write_dat w).2
      = answers slave.next (w.sampling.sampled w.history) (bits write_dat) := by
  have ready : Driven w (SCK hal w.software_spi_cpol w) [] := SCK_same documented idle.symm
  have read := turns_reads documented 8 (s := ⟨SCK hal w.software_spi_cpol w,write_dat,0⟩) (SCK_idle documented w)
    (served.driven ready)
  rw [ready.sampling,ready.sampled,List.append_nil,shiftOut_eq] at read
  have eight : (answers slave.next (w.sampling.sampled w.history) (bits write_dat)).length = 8 := answers_length _ _ _
  have shifted := bits_foldl (answers slave.next (w.sampling.sampled w.history) (bits write_dat)) 0 (by omega)
  rw [eight] at shifted
  exact (congrArg bits read).trans shifted

/-! ### Messages -/

theorem transfer_succ (slave : Slave Pins) (dat : Mem) (n : Nat) (w : World) (recv_buf : Option Mem) :
    transfer hal slave dat (n+1) w recv_buf
      = ((software_spi_rw hal slave (dat n) (transfer hal slave dat n w recv_buf).1).1,
        (transfer hal slave dat n w recv_buf).2.map fun m =>
          store m n [(software_spi_rw hal slave (dat n) (transfer hal slave dat n w recv_buf).1).2]) := by
  rw [transfer,List.range_succ,List.foldl_append]
  rfl

theorem transfer_driven (documented : hal.Documented) (slave : Slave Pins) (dat : Mem) (idle : Idle w)
    (recv_buf : Option Mem) (n : Nat) :
    Driven w (transfer hal slave dat n w recv_buf).1 ((window dat 0 n).flatMap bits)
      ∧ Idle (transfer hal slave dat n w recv_buf).1 := by
  induction n with
  | zero => exact ⟨.refl _,idle⟩
  | succ n ih =>
    obtain ⟨driven,idle_now⟩ := ih
    obtain ⟨byte,idle_later⟩ := software_spi_rw_driven documented slave (dat n) idle_now
    rw [transfer_succ,window_succ,List.flatMap_append,Nat.zero_add,List.flatMap_singleton]
    exact ⟨driven.trans byte,idle_later⟩

theorem transfer_reads (documented : hal.Documented) (dat : Mem) (idle : Idle w) (served : Served slave selected start w)
    (recv_buf : Option Mem) (n : Nat) : ∃ bytes : List UInt8, bytes.length = n
      ∧ (transfer hal slave dat n w recv_buf).2 = recv_buf.map (fun m => store m 0 bytes)
      ∧ bytes.flatMap bits = answers slave.next (w.sampling.sampled w.history) ((window dat 0 n).flatMap bits) := by
  induction n with
  | zero =>
    refine ⟨[],rfl,?_,rfl⟩
    simp [transfer]
  | succ n ih =>
    obtain ⟨bytes,size,stored,answered⟩ := ih
    obtain ⟨driven,idle_now⟩ := transfer_driven documented slave dat idle recv_buf n
    have read := software_spi_rw_reads documented (dat n) idle_now (served.driven driven)
    rw [driven.sampling,driven.sampled] at read
    refine ⟨bytes ++ [(software_spi_rw hal slave (dat n) (transfer hal slave dat n w recv_buf).1).2],by simp [size],?_,?_⟩
    · rw [transfer_succ]
      simp only [stored,Option.map_map]
      congr 1
      funext m
      exact store_adjacent _ _ _ _ (by rw [Nat.zero_add,size])
    · rw [window_succ,List.flatMap_append,List.flatMap_append,List.flatMap_singleton,List.flatMap_singleton,
        answers_append,answered,read,Nat.zero_add]

/-- The bytes for the slave, 0xFF where there are none. -/
def outgoing (message : Message) : Mem := message.send_buf.getD fun _ => 0xff

theorem software_spi_spixfer_eq (slave : Slave Pins) (message : Message) (w : World) :
    software_spi_spixfer hal slave message w
      = let r := transfer hal slave (outgoing message) message.length (taken hal message w) message.recv_buf
        (if message.cs_release then CS hal message.GPIO_Pin true r.1 else r.1,r.2,message.length) := by
  obtain ⟨pin,length,send_buf,recv_buf,cs_take,cs_release⟩ := message
  cases send_buf <;> cases recv_buf <;> rfl

/-- What `software_spi_init` has set, and what holds between messages. -/
structure Configured (mode : UInt8) (w : World) : Prop where
  cpol : w.software_spi_cpol = CPOL mode
  cpha : w.software_spi_cpha = CPHA mode
  idle : Idle w

theorem software_spi_init_configured (documented : hal.Documented) (mode : UInt8) (w : World) :
    Configured mode (software_spi_init hal mode w) := by
  unfold software_spi_init
  refine ⟨?_,?_,?_⟩
  · rw [CPOL]
    cases mode &&& RT_SPI_CPOL != 0 <;> cases mode &&& RT_SPI_CPHA != 0 <;> rfl
  · rw [CPHA]
    cases mode &&& RT_SPI_CPOL != 0 <;> cases mode &&& RT_SPI_CPHA != 0 <;> rfl
  · rw [Idle,MOSI,documented.mosi]
    cases mode &&& RT_SPI_CPOL != 0 <;> cases mode &&& RT_SPI_CPHA != 0 <;> simp [SCK_eq documented,World.drive]

variable {mode : UInt8}

theorem Configured.sampling (configured : Configured mode w) : w.sampling = BitBang.sampling (CPOL mode) (CPHA mode) := by
  rw [World.sampling,configured.cpol,configured.cpha]

theorem Configured.CS (documented : hal.Documented) (configured : Configured mode w) (pin : Nat) (level : Bool) :
    Configured mode (CS hal pin level w) := by
  rw [BitBang.CS,documented.cs]
  exact ⟨configured.cpol,configured.cpha,configured.idle⟩

theorem Configured.taken (documented : hal.Documented) (configured : Configured mode w) (message : Message) :
    Configured mode (taken hal message w) := by
  unfold BitBang.taken
  split
  · exact configured.CS documented message.GPIO_Pin false
  · exact configured

theorem Configured.driven {w' : World} {out : List Bool} (configured : Configured mode w)
    (step : Driven w w' out ∧ Idle w') : Configured mode w' :=
  ⟨step.1.cpol.trans configured.cpol,step.1.cpha.trans configured.cpha,step.2⟩

theorem Configured.software_spi_spixfer (documented : hal.Documented) (configured : Configured mode w) (slave : Slave Pins)
    (message : Message) : Configured mode (software_spi_spixfer hal slave message w).1 := by
  have start := configured.taken documented message
  have sent := start.driven (transfer_driven documented slave (outgoing message) start.idle message.recv_buf message.length)
  rw [software_spi_spixfer_eq]
  simp only
  split
  · exact sent.CS documented message.GPIO_Pin true
  · exact sent

/-- Chip selects move no clock. -/
theorem CS_sampled (documented : hal.Documented) (sampling : Sampling Pins) (clock : sampling.clock = Pins.sck) (pin : Nat)
    (level : Bool) (w : World) : sampling.sampled (CS hal pin level w).history = sampling.sampled w.history := by
  rw [CS,documented.cs]
  exact sampling.sampled_other w.past (sampling.edge_same (by rw [clock]; rfl))

/-- The driver is configured, and messages have been passed on to slaves of any kind. -/
def run (hal : Hal) (mode : UInt8) (earlier : List (Slave Pins × Message)) (w : World) : World :=
  earlier.foldl (fun w (slave,message) => (software_spi_spixfer hal slave message w).1) (software_spi_init hal mode w)

theorem run_configured (documented : hal.Documented) (mode : UInt8) (earlier : List (Slave Pins × Message)) (w : World) :
    Configured mode (run hal mode earlier w) := by
  have step : ∀ (earlier : List (Slave Pins × Message)) {w : World}, Configured mode w →
      Configured mode (earlier.foldl (fun w (slave,message) => (software_spi_spixfer hal slave message w).1) w) := by
    intro earlier
    induction earlier with
    | nil => exact fun configured => configured
    | cons first rest ih => exact fun configured => ih (configured.software_spi_spixfer documented first.1 first.2)
  exact step earlier (software_spi_init_configured documented mode w)

/-- In every mode, after any messages, a slave that follows the clock from the start
    of a message on receives the bytes sent, the buffer receives the bytes that the
    slave presents, and SCK is idle before and after each byte. -/
theorem full_duplex (documented : hal.Documented) (w : World) (mode : UInt8) (earlier : List (Slave Pins × Message))
    (slave : Slave Pins) (message : Message)
    (follows : Follows (sampling (CPOL mode) (CPHA mode))
      (fun pins => pins.cs message.GPIO_Pin = (taken hal message (run hal mode earlier w)).pins.cs message.GPIO_Pin)
      (taken hal message (run hal mode earlier w)).history slave) :
    let sampled := (sampling (CPOL mode) (CPHA mode)).sampled
    let start := taken hal message (run hal mode earlier w)
    let result := software_spi_spixfer hal slave message (run hal mode earlier w)
    let sent := (window (outgoing message) 0 message.length).flatMap bits
    sampled result.1.history = sampled start.history ++ sent
      ∧ (∃ bytes : List UInt8, bytes.length = message.length
        ∧ result.2.1 = message.recv_buf.map (fun m => store m 0 bytes)
        ∧ bytes.flatMap bits = answers slave.next (sampled start.history) sent)
      ∧ ∀ n ≤ message.length,
        (transfer hal slave (outgoing message) n start message.recv_buf).1.pins.sck = CPOL mode := by
  intro sampled start result sent
  have configured : Configured mode start := (run_configured documented mode earlier w).taken documented message
  have clock := configured.sampling
  have served : Served slave (fun pins => pins.cs message.GPIO_Pin = start.pins.cs message.GPIO_Pin) start.history
      start :=
    ⟨clock ▸ follows,.refl _ _,fun pins same => congrFun same message.GPIO_Pin⟩
  refine ⟨?_,?_,?_⟩
  · obtain ⟨driven,_⟩ := transfer_driven documented slave (outgoing message) configured.idle message.recv_buf message.length
    have received := driven.sampled
    rw [clock] at received
    rw [← received]
    simp only [result,software_spi_spixfer_eq]
    split
    · exact CS_sampled documented _ rfl message.GPIO_Pin true _
    · rfl
  · have read := transfer_reads documented (outgoing message) configured.idle served message.recv_buf message.length
    rw [clock] at read
    simp only [result,software_spi_spixfer_eq]
    exact read
  · intro n _
    have after := configured.driven (transfer_driven documented slave (outgoing message) configured.idle message.recv_buf n)
    exact after.idle.trans after.cpol

end

/-- The pins as documented. -/
def plain : Hal where
  set_gpio_pin_value pins
    | .sck, level => { pins with sck := level }
    | .mosi, level => { pins with mosi := level }
    | .cs pin, level => { pins with cs := fun i => if i = pin then level else pins.cs i }
  get_gpio_pin_value level := level

theorem plain_drives : plain.Documented := ⟨fun _ _ => rfl,fun _ _ => rfl,fun _ _ _ => rfl,fun _ => rfl⟩

/-- Two bytes in mode 3, to a slave that answers each bit with the one before it. -/
theorem full_duplex_echo :
    let slave := prompt (sampling (CPOL 3) (CPHA 3)) fun received => received.getLast?.getD true
    let message : Message := ⟨4,2,some fun i => if i = 0 then 0xa5 else 0x3c,some fun _ => 0,true,true⟩
    let w := run plain 3 [] ⟨false,false,⟨false,false,fun _ => true⟩,[]⟩
    let sampled := (sampling (CPOL 3) (CPHA 3)).sampled
    sampled (software_spi_spixfer plain slave message w).1.history
        = sampled (taken plain message w).history ++ (bits 0xa5 ++ bits 0x3c)
      ∧ ∀ n ≤ 2, (transfer plain slave (outgoing message) n (taken plain message w) message.recv_buf).1.pins.sck = CPOL 3 := by
  intro slave message w sampled
  obtain ⟨received,_,idle⟩ := full_duplex plain_drives ⟨false,false,⟨false,false,fun _ => true⟩,[]⟩ 3 [] slave message
    (prompt_follows _ _ _ _)
  exact ⟨received,idle⟩

end Ucm108e.BitBang
