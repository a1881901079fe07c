import Ucm108e.Bytes
import Ucm108e.Framing

/-!
The packers of `elec_dlt645.c` and `elec_1376_2.c`, which put the bytes that
the UART hands over at each poll into frames. Both keep the same static
variables and go through the same three steps; `packFrame` is that common code,
and what differs is how step 0 judges a byte and how step 1 reads the length.
-/
namespace Ucm108e.Packer
open Ucm108e.Bytes Ucm108e.Machine Ucm108e.Framing
set_option linter.unusedSimpArgs false

/-- The build configuration: `ELEC_DEV_TRANS_MAX_LEN`, in the range that
    `Kconfig` allows. -/
structure Config where
  trans_max_len : Nat
  range : 12 ≤ trans_max_len ∧ trans_max_len ≤ 300

def defaultConfig : Config := ⟨256,by decide⟩

/-- `parse_step`; no other value is ever assigned to it. -/
inductive ParseStep where
  | step0
  | step1
  | step2
  deriving DecidableEq, Repr

/-- The static variables of a packer, and the buffer it fills. -/
structure PackState where
  parse_step : ParseStep
  timoutcnt : Nat
  need_len : Nat
  now_len : Nat
  out_buf : Mem

/-- What a call that returns 0 leaves to its caller. -/
structure Packed where
  out_buf : Mem
  out_len : Nat

def Packed.bytes (f : Packed) : List UInt8 := window f.out_buf 0 f.out_len

/-- `elec_uart_read`, for what `rt_device_read` delivers. -/
def elec_uart_read (delivered : List UInt8) (len : Nat) : List UInt8 :=
  if len < 1 then [] else delivered

/-- Where the two packers differ. A head is judged by `now_len` and the byte
    read last; the rest of a frame is as long as bytes already read say. -/
structure Packing where
  head : Nat → UInt8 → Head
  rest : Mem → Nat → Nat
  again_le : ∀ now last, head now last = .again → now ≤ 4
  found_le : ∀ now last n, head now last = .found n → 0 < n ∧ n ≤ 9
  rest_lt : ∀ m now, rest m now < 65536
  rest_local : ∀ m m' now, 2 ≤ now → (∀ i < now, m i = m' i) → rest m now = rest m' now

/-- `parse_step = 0; now_len = 0; need_len = P645_HEAD_LEN;` (both head lengths are 1). -/
def restart (s : PackState) : PackState :=
  { s with parse_step := .step0, now_len := 0, need_len := 1 }

/-- `timoutcnt++`, and a restart once it is above 10000. -/
def countPoll (s : PackState) : PackState :=
  if s.timoutcnt+1 > 10000 then restart { s with timoutcnt := s.timoutcnt+1 }
  else { s with timoutcnt := s.timoutcnt+1 }

/-- The read at the start of every call. -/
def receive (s : PackState) (delivered : List UInt8) : PackState :=
  let got := elec_uart_read delivered s.need_len
  let read_len := got.length % 65536
  let s := { s with out_buf := store s.out_buf s.now_len got }
  if read_len ≤ s.need_len then
    { s with now_len := (s.now_len+read_len) % 65536, need_len := s.need_len-read_len }
  else restart s

/-- The `switch (parse_step)` that follows the read. -/
def act (p : Packing) (s : PackState) : PackState × Option Packed :=
  match s.parse_step with
  | .step0 =>
    if s.need_len = 0 then
      match p.head s.now_len (s.out_buf (s.now_len-1)) with
      | .again => ({ s with need_len := 1, timoutcnt := 0 },none)
      | .restart => ({ s with now_len := 0, need_len := 1, timoutcnt := 0 },none)
      | .found n => ({ s with need_len := n, parse_step := .step1, timoutcnt := 0 },none)
    else ({ s with timoutcnt := 0 },none)
  | .step1 =>
    if s.need_len = 0 then
      (countPoll { s with need_len := p.rest s.out_buf s.now_len, parse_step := .step2 },none)
    else (countPoll s,none)
  | .step2 =>
    if s.need_len = 0 then (countPoll (restart s),some ⟨s.out_buf,s.now_len⟩)
    else (countPoll s,none)

/-- One call of a packer: the frame is there when the call returns 0. -/
def packFrame (p : Packing) (s : PackState) (delivered : List UInt8) : PackState × Option Packed :=
  act p (receive s delivered)

def packInit (buf : Mem) : PackState := ⟨.step0,0,1,0,buf⟩

/-- Step 0 keeps up to four preamble bytes and drops everything else but the
    head; step 1 reads the data length, two more bytes follow the data. -/
def packing645 : Packing where
  head now last :=
    if last = 0xFE then if now ≤ 4 then .again else .restart
    else if last = 0x68 then .found 9
    else .restart
  rest m now := u16 (0+((m (now-1)).toNat+2))
  again_le := by intro now last again; split_ifs at again; assumption
  found_le := by intro now last n found; split_ifs at found; cases found; decide
  rest_lt := fun m now => u16_lt _
  rest_local := by intro m m' now two same; rw [same (now-1) (by omega)]

/-- Step 0 drops everything but the head; step 1 reads the length of the whole
    frame, of which `now_len` bytes are there. -/
def packing13762 : Packing where
  head _ last := if last = 0x68 then .found 2 else .restart
  rest m now := u16 (0+(le16 (m (now-2)) (m (now-1))).toNat-now)
  again_le := by intro now last again; split_ifs at again
  found_le := by intro now last n found; split_ifs at found; cases found; decide
  rest_lt := fun m now => u16_lt _
  rest_local := by intro m m' now two same; rw [same (now-1) (by omega),same (now-2) (by omega)]

def elec_dev_pack_645_frame : PackState → List UInt8 → PackState × Option Packed := packFrame packing645

def elec_dev_pack_1376_2_frame : PackState → List UInt8 → PackState × Option Packed := packFrame packing13762

/-! ### What one call does -/

/-- `rt_device_read` delivers no more than it was asked for. -/
def Served (s : PackState) (r : List UInt8) : Prop := r.length ≤ s.need_len

instance (s : PackState) (r : List UInt8) : Decidable (Served s r) := inferInstanceAs (Decidable (r.length ≤ s.need_len))

/-- The variables before every call, however the calls before were served. -/
structure Shape (s : PackState) : Prop where
  need_lt : s.need_len < 65536
  now_lt : s.now_len < 65536
  step0 : s.parse_step = .step0 → s.need_len = 1 ∧ s.now_len ≤ 4
  step1 : s.parse_step = .step1 → 0 < s.need_len ∧ 0 < s.now_len ∧ s.now_len+s.need_len ≤ 14

theorem shape_init (buf : Mem) : Shape (packInit buf) := by
  constructor <;> simp [packInit]

theorem shape_restart (s : PackState) : Shape (restart s) := by
  constructor <;> simp [restart]

theorem shape_count {s : PackState} (shape : Shape s) : Shape (countPoll s) := by
  unfold countPoll
  split
  · exact shape_restart _
  · exact ⟨shape.need_lt,shape.now_lt,shape.step0,shape.step1⟩

def filled (s : PackState) (r : List UInt8) : PackState :=
  { s with out_buf := store s.out_buf s.now_len r, now_len := (s.now_len+r.length) % 65536,
           need_len := s.need_len-r.length }

theorem receive_served {s : PackState} {r : List UInt8} (shape : Shape s) (served : Served s r) :
    receive s r = filled s r := by
  have need := shape.need_lt
  unfold Served at served
  have small : r.length % 65536 = r.length := by omega
  unfold receive elec_uart_read filled
  by_cases none : s.need_len < 1
  · have empty : r = [] := List.length_eq_zero_iff.mp (by omega)
    simp [none,empty]
  · simp [none,small,served]

section
variable (p : Packing) {s : PackState} {r : List UInt8} (shape : Shape s)
include shape

theorem poll_none (at0 : s.parse_step = .step0) : packFrame p s [] = ({ s with timoutcnt := 0 },none) := by
  have need := (shape.step0 at0).1
  have now : s.now_len % 65536 = s.now_len := Nat.mod_eq_of_lt shape.now_lt
  rw [packFrame,receive_served shape (by simp [Served])]
  simp [act,filled,at0,need,now]

theorem poll_byte (at0 : s.parse_step = .step0) (b : UInt8) : packFrame p s [b] =
    (match p.head (s.now_len+1) b with
      | .again => { s with out_buf := store s.out_buf s.now_len [b], now_len := s.now_len+1, need_len := 1, timoutcnt := 0 }
      | .restart => { s with out_buf := store s.out_buf s.now_len [b], now_len := 0, need_len := 1, timoutcnt := 0 }
      | .found n => { s with out_buf := store s.out_buf s.now_len [b], now_len := s.now_len+1, need_len := n,
                             parse_step := .step1, timoutcnt := 0 },none) := by
  obtain ⟨need,now⟩ := shape.step0 at0
  have small : (s.now_len+1) % 65536 = s.now_len+1 := Nat.mod_eq_of_lt (by omega)
  have last : store s.out_buf s.now_len [b] s.now_len = b := by
    have := @store_at s.out_buf s.now_len [b] 0 (by simp)
    simpa using this
  rw [packFrame,receive_served shape (by simp [Served,need])]
  simp only [act,filled,at0,need,List.length_singleton,small,Nat.sub_self,if_true,Nat.add_sub_cancel,last]
  split <;> simp_all

theorem poll_header_some (at1 : s.parse_step = .step1) (few : r.length < s.need_len) :
    packFrame p s r = (countPoll (filled s r),none) := by
  have more : ¬ s.need_len-r.length = 0 := by omega
  rw [packFrame,receive_served shape (by unfold Served; omega)]
  simp [act,filled,at1,more]

theorem poll_header_all (at1 : s.parse_step = .step1) (all : r.length = s.need_len) :
    packFrame p s r =
      (countPoll { filled s r with need_len := p.rest (store s.out_buf s.now_len r) (s.now_len+r.length),
                                   parse_step := .step2 },none) := by
  have bound := (shape.step1 at1).2.2
  have small : (s.now_len+r.length) % 65536 = s.now_len+r.length := Nat.mod_eq_of_lt (by omega)
  rw [packFrame,receive_served shape (by unfold Served; omega)]
  simp [act,filled,at1,all]
  rw [← all,small]

theorem poll_body_some (at2 : s.parse_step = .step2) (few : r.length < s.need_len) :
    packFrame p s r = (countPoll (filled s r),none) := by
  have more : ¬ s.need_len-r.length = 0 := by omega
  rw [packFrame,receive_served shape (by unfold Served; omega)]
  simp [act,filled,at2,more]

theorem poll_body_all (at2 : s.parse_step = .step2) (all : r.length = s.need_len) :
    packFrame p s r = (countPoll (restart (filled s r)),
      some ⟨store s.out_buf s.now_len r,(s.now_len+r.length) % 65536⟩) := by
  rw [packFrame,receive_served shape (by unfold Served; omega)]
  simp [act,filled,at2,all]
end

/-- All that a call can do, by the step it finds and the bytes it is served. -/
inductive Poll (p : Packing) (s : PackState) : List UInt8 → PackState × Option Packed → Prop
  | idle (at0 : s.parse_step = .step0) : Poll p s [] ({ s with timoutcnt := 0 },none)
  | again (at0 : s.parse_step = .step0) (b : UInt8) (head : p.head (s.now_len+1) b = .again) :
      Poll p s [b] ({ s with out_buf := store s.out_buf s.now_len [b], now_len := s.now_len+1, need_len := 1,
                             timoutcnt := 0 },none)
  | dropped (at0 : s.parse_step = .step0) (b : UInt8) (head : p.head (s.now_len+1) b = .restart) :
      Poll p s [b] ({ s with out_buf := store s.out_buf s.now_len [b], now_len := 0, need_len := 1, timoutcnt := 0 },none)
  | found (at0 : s.parse_step = .step0) (b : UInt8) (n : Nat) (head : p.head (s.now_len+1) b = .found n) :
      Poll p s [b] ({ s with out_buf := store s.out_buf s.now_len [b], now_len := s.now_len+1, need_len := n,
                             parse_step := .step1, timoutcnt := 0 },none)
  | header (at1 : s.parse_step = .step1) (r : List UInt8) (few : r.length < s.need_len) :
      Poll p s r (countPoll (filled s r),none)
  | announced (at1 : s.parse_step = .step1) (r : List UInt8) (all : r.length = s.need_len) :
      Poll p s r (countPoll { filled s r with need_len := p.rest (store s.out_buf s.now_len r) (s.now_len+r.length),
                                              parse_step := .step2 },none)
  | body (at2 : s.parse_step = .step2) (r : List UInt8) (few : r.length < s.need_len) :
      Poll p s r (countPoll (filled s r),none)
  | finished (at2 : s.parse_step = .step2) (r : List UInt8) (all : r.length = s.need_len) :
      Poll p s r (countPoll (restart (filled s r)),
        some ⟨store s.out_buf s.now_len r,(s.now_len+r.length) % 65536⟩)

theorem poll_cases (p : Packing) {s : PackState} {r : List UInt8} (shape : Shape s) (served : Served s r) :
    Poll p s r (packFrame p s r) := by
  unfold Served at served
  cases step : s.parse_step with
  | step0 =>
    rw [(shape.step0 step).1] at served
    rcases Nat.le_one_iff_eq_zero_or_eq_one.mp served with none | single
    · rw [List.length_eq_zero_iff.mp none,poll_none p shape step]
      exact .idle step
    · obtain ⟨b,rfl⟩ := List.length_eq_one_iff.mp single
      rw [poll_byte p shape step]
      cases head : p.head (s.now_len+1) b with
      | again => exact .again step b head
      | restart => exact .dropped step b head
      | found n => exact .found step b n head
  | step1 =>
    rcases Nat.lt_or_eq_of_le served with few | all
    · rw [poll_header_some p shape step few]
      exact .header step r few
    · rw [poll_header_all p shape step all]
      exact .announced step r all
  | step2 =>
    rcases Nat.lt_or_eq_of_le served with few | all
    · rw [poll_body_some p shape step few]
      exact .body step r few
    · rw [poll_body_all p shape step all]
      exact .finished step r all

theorem shape_poll (p : Packing) (s : PackState) (r : List UInt8) (shape : Shape s) (served : Served s r) :
    Shape (packFrame p s r).1 := by
  have need := shape.need_lt
  have poll := poll_cases p shape served
  generalize packFrame p s r = next at poll ⊢
  cases poll with
  | idle at0 => exact ⟨need,shape.now_lt,shape.step0,shape.step1⟩
  | again at0 b head =>
    have := p.again_le _ _ head
    constructor <;> simp [at0] <;> omega
  | dropped at0 b head => constructor <;> simp [at0]
  | found at0 b n head =>
    have now := (shape.step0 at0).2
    have := p.found_le _ _ _ head
    constructor <;> simp <;> omega
  | header at1 _ few =>
    have := shape.step1 at1
    apply shape_count
    constructor <;> simp [filled,at1] <;> omega
  | announced at1 _ all =>
    have := p.rest_lt (store s.out_buf s.now_len r) (s.now_len+r.length)
    apply shape_count
    constructor <;> simp [filled] <;> omega
  | body at2 _ few =>
    apply shape_count
    constructor <;> simp [filled,at2] <;> omega
  | finished at2 _ all => exact shape_count (shape_restart _)

end Ucm108e.Packer
