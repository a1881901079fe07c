import Mathlib
import Ucm108e.Flash

/-!
The SPI master: `uc8088_spi_spixfer` of `drv_spi.c` over `uc_spim.c`. A message is
cut into pieces of 65535 bytes and each piece into loads of the 32 bytes that the
fifos hold. Within a load every byte is sent, and nearly every one stored, where it
belongs, but no load after the first of a piece moves on in the buffers.
-/
namespace Ucm108e.Spim
open Ucm108e.Bytes Ucm108e.Words
set_option linter.unusedSimpArgs false

/-! ### The controller -/

/-- The bits of `SPILEN` for the length of the data. -/
def spim_set_datalen (datalen : Nat) : Nat := datalen % 2^16

/-- The words that `spim_write_fifo` puts into the fifo; the loop is that of
    `spi_write_fifo`. -/
def spim_write_fifo (data : Mem) (datalen : Nat) : List Word := Flash.spi_write_fifo data datalen

/-- `spim_read_fifo` puts the words that it finds into `data`. -/
def spim_read_fifo (words : List Word) (data : Mem) (datalen : Nat) : Mem :=
  store data 0 ((words.take (Flash.num_words datalen)).flatMap fun w => window (byte w) 0 4)

/-- The bytes that a transaction of so many bits shifts out, each word most
    significant byte first. -/
def shiftedOut (words : List Word) (bits : Nat) : List UInt8 := (words.flatMap Flash.sent).take (bits/8)

/-- The words that a transaction makes of the bytes shifted in: the first byte of
    each is the most significant one, and the last word is right-aligned. -/
def shiftedIn (bytes : Mem) (bits : Nat) : List Word :=
  (List.range (Flash.num_words bits)).map fun i =>
    let c := min 4 (bits/8-4*i)
    ofBytes fun k => if k < c then bytes (4*i+(c-1-k)) else 0

/-! ### The driver -/

structure Message where
  length : Nat
  send_buf : Option Mem
  recv_buf : Option Mem

/-- What the bus brings, and what lies behind `data_buf` on the stack. -/
structure Env where
  incoming : Mem
  behind : Mem

/-- The bytes shifted out, the number of those shifted in, and what `recv_buf` holds. -/
structure Bus where
  sent : List UInt8
  taken : Nat
  recv : Mem

/-- `data_buf` with the bytes to send, each word turned around. -/
def pack (send_buf : Mem) (order_size : Nat) : Mem :=
  (List.range order_size).foldl (fun data_buf index => store data_buf (index/4*4+(3-index % 4)) [send_buf index])
    fun _ => 0

/-- `count` where the group of four begins at `index_offset`. -/
def groupCount (order_size index_offset : Nat) : Nat :=
  if index_offset+4 > order_size then order_size-index_offset else 4

/-- The place in `data_buf` that a byte is taken from. -/
def source (count index : Nat) : Nat := index/count*count+((count-1)-index % count)

/-- The loops that take the bytes out of `data_buf`; `recv_buf` is the place of the
    pointer in the buffer of the message. -/
def unpack (data_buf : Mem) (recv_buf order_size : Nat) (recv : Mem) : Mem :=
  (List.range ((order_size+3)/4)).foldl (fun recv group =>
    let index_offset := 4*group
    let count := groupCount order_size index_offset
    (List.range count).foldl (fun recv i =>
      store recv (recv_buf+index_offset+i) [data_buf (source count (index_offset+i))]) recv) recv

/-- One load. The three branches of the driver differ in whether the load is
    written before the transaction and whether it is read after it. -/
def load (env : Env) (send_buf : Option Mem) (recv_buf : Option Nat) (order_size : Nat) (bus : Bus) : Bus :=
  let data_len := order_size*8
  let bits := spim_set_datalen data_len
  let words := shiftedIn (shift env.incoming bus.taken) bits
  { sent := bus.sent ++ match send_buf with
      | some send_buf => shiftedOut (spim_write_fifo (pack send_buf order_size) data_len) bits
      | none => []
    taken := bus.taken+bits/8
    recv := match recv_buf with
      | some recv_buf =>
        unpack (spim_read_fifo words (fun j => if j < 32 then 0xff else env.behind j) data_len) recv_buf order_size bus.recv
      | none => bus.recv }

/-- The loads of a piece; each turn moves `offset` on, so that `left` turns are enough. -/
def loads (env : Env) (send_buf : Option Mem) (recv_buf : Option Nat) (send_length : Nat) :
    (left offset : Nat) → Bus → Bus
  | 0, _, bus => bus
  | left+1, offset, bus =>
    if offset < send_length then
      let order_size := if send_length-offset > 32 then 32 else send_length-offset
      loads env send_buf recv_buf send_length left (offset+order_size) (load env send_buf recv_buf order_size bus)
    else bus

/-- The pieces of a message. -/
def pieces (env : Env) (message : Message) : (left message_length : Nat) → Bus → Bus
  | 0, _, bus => bus
  | left+1, message_length, bus =>
    if message_length = 0 then bus
    else
      let send_length := if message_length > 65535 then 65535 else message_length
      let message_length := message_length-send_length
      let already_send_length := message.length-send_length-message_length
      pieces env message left message_length
        (loads env (message.send_buf.map fun send_buf => shift send_buf already_send_length)
          (message.recv_buf.map fun _ => already_send_length) send_length send_length 0 bus)

def uc8088_spi_spixfer (env : Env) (message : Message) : Bus × Nat :=
  (pieces env message message.length message.length ⟨[],0,message.recv_buf.getD fun _ => 0⟩,message.length)

/-! ### What a load sends -/

theorem pack_apply (send_buf : Mem) (n j : Nat) :
    pack send_buf n j = if j/4*4+(3-j % 4) < n then send_buf (j/4*4+(3-j % 4)) else 0 := by
  induction n with
  | zero => rfl
  | succ n ih =>
    have step : pack send_buf (n+1) = store (pack send_buf n) (n/4*4+(3-n % 4)) [send_buf n] := by
      rw [pack,List.range_succ,List.foldl_append]
      rfl
    rw [step]
    by_cases here : j = n/4*4+(3-n % 4)
    · have back : j/4*4+(3-j % 4) = n := by omega
      have stored := store_at (pack send_buf n) (n/4*4+(3-n % 4)) (show 0 < [send_buf n].length by simp)
      rw [Nat.add_zero,← here] at stored
      rw [← here,stored,if_pos (by omega),back]
      rfl
    · have kept : store (pack send_buf n) (n/4*4+(3-n % 4)) [send_buf n] j = pack send_buf n j := by
        rcases Nat.lt_or_gt_of_ne here with below | behind
        · exact store_below _ below
        · exact store_behind (by simp; omega)
      rw [kept,ih]
      by_cases before : j/4*4+(3-j % 4) < n
      · rw [if_pos before,if_pos (by omega)]
      · rw [if_neg before,if_neg (by omega)]

theorem num_words_bytes {n : Nat} (small : n ≤ 32) : Flash.num_words (n*8) = (n+3)/4 := by
  unfold Flash.num_words
  split <;> omega

/-- A load sends the bytes from the start of the buffer in their order. -/
theorem shiftedOut_pack (send_buf : Mem) {n : Nat} (small : n ≤ 32) :
    shiftedOut (spim_write_fifo (pack send_buf n) (n*8)) (spim_set_datalen (n*8)) = window send_buf 0 n := by
  have bits : spim_set_datalen (n*8)/8 = n := by
    unfold spim_set_datalen
    omega
  have words : (spim_write_fifo (pack send_buf n) (n*8)).flatMap Flash.sent
      = window (fun j => byte (ofBytes (shift (pack send_buf n) (4*(j/4)))) (3-j % 4)) 0 (4*((n+3)/4)) := by
    rw [spim_write_fifo,Flash.spi_write_fifo,num_words_bytes small,List.flatMap_map,
      ← window_flatMap (fun i k => byte (ofBytes (shift (pack send_buf n) (4*i))) (3-k)) (by omega)]
    rfl
  rw [shiftedOut,words,bits,window_take _ _ (by omega)]
  refine window_congr fun j inside => ?_
  rw [Nat.zero_add,byte_ofBytes _ (by omega),shift_apply,pack_apply,if_pos (by omega)]
  congr 1
  omega

/-! ### What a load stores -/

theorem unpack_eq (data_buf : Mem) (recv_buf n : Nat) (recv : Mem) :
    unpack data_buf recv_buf n recv
      = store recv recv_buf (window (fun j => data_buf (source (groupCount n (j/4*4)) j)) 0 n) := by
  have groups : ∀ g, 4*g ≤ n+3 → (List.range g).foldl (fun recv group =>
        (List.range (groupCount n (4*group))).foldl (fun recv i =>
          store recv (recv_buf+4*group+i) [data_buf (source (groupCount n (4*group)) (4*group+i))]) recv) recv
      = store recv recv_buf (window (fun j => data_buf (source (groupCount n (j/4*4)) j)) 0 (min (4*g) n)) := by
    intro g
    induction g with
    | zero => intro _; simp
    | succ g ih =>
      intro within
      have count : min (4*(g+1)) n = min (4*g) n+groupCount n (4*g) := by
        unfold groupCount
        split <;> omega
      have full : min (4*g) n = 4*g := by omega
      rw [List.range_succ,List.foldl_append,ih (by omega),List.foldl_cons,List.foldl_nil,
        store_range _ (fun i => data_buf (source (groupCount n (4*g)) (4*g+i))),count,window_add,full]
      have same : window (fun i => data_buf (source (groupCount n (4*g)) (4*g+i))) 0 (groupCount n (4*g))
          = window (fun j => data_buf (source (groupCount n (j/4*4)) j)) (0+4*g) (groupCount n (4*g)) := by
        simp only [window,Nat.zero_add]
        refine List.map_congr_left fun i inside => ?_
        have small := List.mem_range.mp inside
        have four : groupCount n (4*g) ≤ 4 := by
          unfold groupCount
          split <;> omega
        rw [show (4*g+i)/4*4 = 4*g by omega]
      rw [same]
      exact store_adjacent _ _ _ _ (by simp)
  have whole := groups ((n+3)/4) (by omega)
  rw [show min (4*((n+3)/4)) n = n by omega] at whole
  exact whole

/-- What `data_buf` holds after the transaction, as far as it was written. -/
theorem read_apply (bytes data : Mem) {n j : Nat} (small : n ≤ 32) (written : j < 4*((n+3)/4)) :
    spim_read_fifo (shiftedIn bytes (spim_set_datalen (n*8))) data (n*8) j
      = if j % 4 < min 4 (n-4*(j/4)) then bytes (4*(j/4)+(min 4 (n-4*(j/4))-1-j % 4)) else 0 := by
  have bits : spim_set_datalen (n*8) = n*8 := by
    unfold spim_set_datalen
    omega
  have size : n*8/8 = n := by omega
  have words : ((shiftedIn bytes (n*8)).take (Flash.num_words (n*8))).flatMap (fun w => window (byte w) 0 4)
      = window (fun j => byte (ofBytes fun k => if k < min 4 (n-4*(j/4)) then bytes (4*(j/4)+(min 4 (n-4*(j/4))-1-k))
          else 0) (j % 4)) 0 (4*((n+3)/4)) := by
    rw [List.take_of_length_le (by simp [shiftedIn]),shiftedIn,size,num_words_bytes small,List.flatMap_map,
      ← window_flatMap (fun i k => byte (ofBytes fun k => if k < min 4 (n-4*i) then bytes (4*i+(min 4 (n-4*i)-1-k))
          else 0) k) (by omega)]
  have inside : j < (window (fun j => byte (ofBytes fun k => if k < min 4 (n-4*(j/4)) then
      bytes (4*(j/4)+(min 4 (n-4*(j/4))-1-k)) else 0) (j % 4)) 0 (4*((n+3)/4))).length := by
    rw [window_length]
    exact written
  have stored := store_at data 0 inside
  rw [Nat.zero_add,window_getElem,Nat.zero_add,byte_ofBytes _ (by omega)] at stored
  rw [spim_read_fifo,bits,words,stored]

/-- The last group of a load of this size is taken from the right places. -/
def Aligned (n : Nat) : Prop := n % 4 = 3 → n/4 % 3 = 0

theorem source_spec {n j : Nat} (inside : j < n) (aligned : Aligned n) :
    source (groupCount n (j/4*4)) j = j/4*4+(min 4 (n-4*(j/4))-1-j % 4) := by
  have count : groupCount n (j/4*4) = min 4 (n-4*(j/4)) := by
    unfold groupCount
    split <;> omega
  rw [count]
  obtain one | two | three | four : min 4 (n-4*(j/4)) = 1 ∨ min 4 (n-4*(j/4)) = 2 ∨ min 4 (n-4*(j/4)) = 3
      ∨ min 4 (n-4*(j/4)) = 4 := by omega
  · rw [one,source]
    omega
  · rw [two,source]
    omega
  · have third : n/4 % 3 = 0 := aligned (by omega)
    rw [three,source]
    omega
  · rw [four,source]

/-- The bytes that a load puts into the buffer of the message. -/
def stored (env : Env) (taken n : Nat) : Mem := fun j =>
  spim_read_fifo (shiftedIn (shift env.incoming taken) (spim_set_datalen (n*8)))
    (fun j => if j < 32 then 0xff else env.behind j) (n*8) (source (groupCount n (j/4*4)) j)

theorem stored_exact (env : Env) (taken : Nat) {n j : Nat} (small : n ≤ 32) (aligned : Aligned n) (inside : j < n) :
    stored env taken n j = env.incoming (taken+j) := by
  have place := source_spec inside aligned
  have last : min 4 (n-4*(j/4))-1-j % 4 < 4 := by omega
  rw [stored,place,read_apply _ _ small (by omega),if_pos (by omega),shift_apply]
  congr 1
  omega

/-- The first byte of a last group of three is taken from another byte where the
    group is not aligned. -/
theorem stored_misplaced (env : Env) (taken : Nat) {n : Nat} (small : n ≤ 32) (misaligned : ¬ Aligned n) :
    ∃ j, j ≠ n/4*4 ∧ stored env taken n (n/4*4) = env.incoming (taken+j) := by
  obtain ⟨three,third⟩ := Classical.not_imp.mp misaligned
  have count : groupCount n (n/4*4/4*4) = 3 := by
    unfold groupCount
    split <;> omega
  rcases (show n/4 % 3 = 1 ∨ n/4 % 3 = 2 by omega) with first | second
  · have place : source 3 (n/4*4) = n/4*4 := by
      unfold source
      omega
    refine ⟨n/4*4+2,by omega,?_⟩
    rw [stored,count,place,read_apply _ _ small (by omega),if_pos (by omega),shift_apply]
    congr 1
    omega
  · have place : source 3 (n/4*4) = n/4*4-2 := by
      unfold source
      omega
    refine ⟨n/4*4-3,by omega,?_⟩
    rw [stored,count,place,read_apply _ _ small (by omega),if_pos (by omega),shift_apply]
    congr 1
    omega

theorem load_recv (env : Env) (send_buf : Option Mem) (recv_buf n : Nat) (bus : Bus) :
    (load env send_buf (some recv_buf) n bus).recv = store bus.recv recv_buf (window (stored env bus.taken n) 0 n) := by
  simp only [load,unpack_eq]
  rfl

theorem load_sent (env : Env) (send_buf : Mem) (recv_buf : Option Nat) {n : Nat} (small : n ≤ 32) (bus : Bus) :
    (load env (some send_buf) recv_buf n bus).sent = bus.sent ++ window send_buf 0 n := by
  simp only [load,shiftedOut_pack send_buf small]

/-! ### Messages sent -/

/-- The next part of something is full or the last one. -/
theorem part_size {whole most n : Nat} (some_whole : 0 < whole) (some_most : 0 < most)
    (size : n = if whole > most then most else whole) : 0 < n ∧ n ≤ most ∧ n ≤ whole ∧ (n = most ∨ n = whole) := by
  split at size <;> omega

/-- The loads of a piece send its first 32 bytes over and over. -/
theorem loads_sent (env : Env) (send_buf : Mem) (recv_buf : Option Nat) (send_length left : Nat) :
    ∀ {offset : Nat} (bus : Bus), (offset < send_length → offset % 32 = 0) → send_length ≤ offset+left →
    (loads env (some send_buf) recv_buf send_length left offset bus).sent
      = bus.sent ++ window (fun j => send_buf (j % 32)) offset (send_length-offset) := by
  induction left with
  | zero =>
    intro offset bus _ enough
    rw [loads,show send_length-offset = 0 by omega,window_zero,List.append_nil]
  | succ left ih =>
    intro offset bus aligned enough
    rw [loads]
    by_cases more : offset < send_length
    · have start := aligned more
      obtain ⟨n,size⟩ : ∃ n, n = if send_length-offset > 32 then 32 else send_length-offset := ⟨_,rfl⟩
      obtain ⟨some_size,small,within,last⟩ := part_size (by omega) (by decide) size
      simp only [if_pos more]
      rw [← size,ih _ (by omega) (by omega),load_sent env send_buf recv_buf small,List.append_assoc]
      have now : window send_buf 0 n = window (fun j => send_buf (j % 32)) offset n := by
        simp only [window,Nat.zero_add]
        refine List.map_congr_left fun i inside => ?_
        have small := List.mem_range.mp inside
        rw [show (offset+i) % 32 = i by omega]
      rw [now,← window_add,show n+(send_length-(offset+n)) = send_length-offset by omega]
    · rw [if_neg more,show send_length-offset = 0 by omega,window_zero,List.append_nil]

/-- Which byte of the buffer is sent in the place of another. -/
def repeated (i : Nat) : Nat := 65535*(i/65535)+i % 65535 % 32

theorem pieces_sent (env : Env) {message : Message} {send_buf : Mem} (sends : message.send_buf = some send_buf)
    (left : Nat) : ∀ {message_length : Nat} (bus : Bus), message_length ≤ message.length → message_length ≤ left →
    (0 < message_length → (message.length-message_length) % 65535 = 0) →
    (pieces env message left message_length bus).sent
      = bus.sent ++ window (fun i => send_buf (repeated i)) (message.length-message_length) message_length := by
  induction left with
  | zero =>
    intro message_length bus _ enough _
    obtain rfl : message_length = 0 := by omega
    rw [pieces,window_zero,List.append_nil]
  | succ left ih =>
    intro message_length bus within enough aligned
    rw [pieces]
    by_cases done : message_length = 0
    · rw [if_pos done,done,window_zero,List.append_nil]
    · have start := aligned (by omega)
      obtain ⟨n,size⟩ : ∃ n, n = if message_length > 65535 then 65535 else message_length := ⟨_,rfl⟩
      obtain ⟨some_size,small,part,last⟩ := part_size (by omega) (by decide) size
      simp only [if_neg done,sends,Option.map_some]
      rw [← size,show message.length-n-(message_length-n) = message.length-message_length by omega,
        ih _ (by omega) (by omega) (by omega),loads_sent env _ _ n n bus (by omega) (by omega),List.append_assoc]
      have now : window (fun j => shift send_buf (message.length-message_length) (j % 32)) 0 (n-0)
          = window (fun i => send_buf (repeated i)) (message.length-message_length) n := by
        simp only [window,Nat.zero_add,Nat.sub_zero,shift_apply]
        refine List.map_congr_left fun i inside => ?_
        have small := List.mem_range.mp inside
        unfold repeated
        congr 1
        omega
      rw [now,show message.length-(message_length-n) = message.length-message_length+n by omega,← window_add,
        show n+(message_length-n) = message_length by omega]

/-- The bytes shifted out are those of the buffer exactly when each byte is equal to
    the one at its place in the first 32 bytes of its piece, as it is up to 32 bytes. -/
theorem transmit_iff (env : Env) {message : Message} {send_buf : Mem} (sends : message.send_buf = some send_buf) :
    (uc8088_spi_spixfer env message).1.sent = window send_buf 0 message.length
      ↔ ∀ i < message.length, send_buf i = send_buf (65535*(i/65535)+i % 65535 % 32) := by
  have bytes := pieces_sent env sends message.length
    (⟨[],0,message.recv_buf.getD fun _ => 0⟩ : Bus) (Nat.le_refl _) (Nat.le_refl _) (by simp)
  rw [Nat.sub_self,List.nil_append] at bytes
  rw [uc8088_spi_spixfer,bytes]
  constructor
  · intro same i inside
    have agree := window_agree same inside
    rw [Nat.zero_add] at agree
    exact agree.symm
  · intro same
    refine window_congr fun i inside => ?_
    rw [Nat.zero_add]
    exact (same i inside).symm

/-- A message of two pieces, the first one of 2048 loads, whose bytes come again after every 32 of its piece. -/
theorem transmit_pieces :
    (uc8088_spi_spixfer ⟨fun _ => 0,fun _ => 0⟩ ⟨65600,some fun i => UInt8.ofNat (i % 65535 % 32),none⟩).1.sent
      = window (fun i => UInt8.ofNat (i % 65535 % 32)) 0 65600 := by
  refine (transmit_iff ⟨fun _ => 0,fun _ => 0⟩ rfl).mpr fun i _ => ?_
  have place : (65535*(i/65535)+i % 65535 % 32) % 65535 % 32 = i % 65535 % 32 := by omega
  simp only [place]

/-- The byte behind the first load is not sent; the first one is sent again. -/
theorem transmit_repeats :
    (uc8088_spi_spixfer ⟨fun _ => 0,fun _ => 0⟩ ⟨33,some UInt8.ofNat,none⟩).1.sent = window UInt8.ofNat 0 32 ++ [0] := by
  decide +kernel

/-! ### Messages received -/

theorem load_recv_outside (env : Env) (send_buf : Option Mem) (recv_buf : Nat) {n i : Nat} (small : n ≤ 32) (bus : Bus)
    (outside : i < recv_buf ∨ recv_buf+32 ≤ i) : (load env send_buf (some recv_buf) n bus).recv i = bus.recv i := by
  rw [load_recv]
  rcases outside with below | behind
  · exact store_below _ below
  · exact store_behind (by rw [window_length]; omega)

/-- No load of a piece stores anything behind its first 32 bytes. -/
theorem loads_recv_outside (env : Env) (send_buf : Option Mem) (recv_buf send_length : Nat) {i : Nat}
    (outside : i < recv_buf ∨ recv_buf+32 ≤ i) (left : Nat) : ∀ (offset : Nat) (bus : Bus),
    (loads env send_buf (some recv_buf) send_length left offset bus).recv i = bus.recv i := by
  induction left with
  | zero =>
    intro offset bus
    rfl
  | succ left ih =>
    intro offset bus
    rw [loads]
    by_cases more : offset < send_length
    · obtain ⟨n,size⟩ : ∃ n, n = if send_length-offset > 32 then 32 else send_length-offset := ⟨_,rfl⟩
      obtain ⟨-,small,-,-⟩ := part_size (by omega) (by decide) size
      simp only [if_pos more]
      rw [← size,ih,load_recv_outside env send_buf recv_buf small bus outside]
    · rw [if_neg more]

theorem pieces_recv_outside (env : Env) (message : Message) {recv : Mem} (receives : message.recv_buf = some recv)
    {i : Nat} (behind : 32 ≤ i % 65535) (left : Nat) : ∀ {message_length : Nat} (bus : Bus), message_length ≤ message.length →
    (0 < message_length → (message.length-message_length) % 65535 = 0) →
    (pieces env message left message_length bus).recv i = bus.recv i := by
  induction left with
  | zero =>
    intro message_length bus _ _
    rfl
  | succ left ih =>
    intro message_length bus within aligned
    rw [pieces]
    by_cases done : message_length = 0
    · rw [if_pos done]
    · have start := aligned (by omega)
      obtain ⟨n,size⟩ : ∃ n, n = if message_length > 65535 then 65535 else message_length := ⟨_,rfl⟩
      obtain ⟨some_size,-,part,last⟩ := part_size (by omega) (by decide) size
      simp only [if_neg done,receives,Option.map_some]
      rw [← size,ih _ (by omega) (by omega)]
      exact loads_recv_outside env _ _ n (by omega) n 0 bus

theorem loads_done (env : Env) (send_buf : Option Mem) (recv_buf : Option Nat) (left : Nat) {send_length offset : Nat}
    (done : ¬ offset < send_length) (bus : Bus) : loads env send_buf recv_buf send_length left offset bus = bus := by
  cases left <;> simp [loads,done]

theorem pieces_done (env : Env) (message : Message) (left : Nat) (bus : Bus) : pieces env message left 0 bus = bus := by
  cases left <;> simp [pieces]

/-- A message of one load. -/
theorem spixfer_load (env : Env) (message : Message) (some_length : 0 < message.length) (short : message.length ≤ 32) :
    (uc8088_spi_spixfer env message).1 = load env message.send_buf (message.recv_buf.map fun _ => 0) message.length
      ⟨[],0,message.recv_buf.getD fun _ => 0⟩ := by
  obtain ⟨left,length⟩ := Nat.exists_eq_succ_of_ne_zero (Nat.ne_of_gt some_length)
  have piece : (if message.length > 65535 then 65535 else message.length) = message.length := if_neg (by omega)
  have size : (if message.length-0 > 32 then 32 else message.length-0) = message.length := if_neg (by omega)
  have once : ∀ bus, pieces env message message.length message.length bus
      = loads env message.send_buf (message.recv_buf.map fun _ => 0) message.length message.length 0 bus := by
    intro bus
    conv_lhs => rw [length]
    rw [pieces,if_neg (by omega)]
    simp only [← length,piece,Nat.sub_self,Nat.sub_zero,pieces_done,shift_zero,Option.map_id']
  have alone : ∀ bus, loads env message.send_buf (message.recv_buf.map fun _ => 0) message.length message.length 0 bus
      = load env message.send_buf (message.recv_buf.map fun _ => 0) message.length bus := by
    intro bus
    conv_lhs => rw [length]
    rw [loads,← length,if_pos some_length]
    simp only [size]
    exact loads_done env _ _ left (by omega) _
  rw [uc8088_spi_spixfer,once,alone]

/-- Up to one load, the buffer holds what the load has stored. -/
theorem recv_load (env : Env) (send_buf : Option Mem) (recv : Mem) {length i : Nat} (short : length ≤ 32)
    (inside : i < length) :
    (uc8088_spi_spixfer env ⟨length,send_buf,some recv⟩).1.recv i = stored env 0 length i := by
  have one := spixfer_load env ⟨length,send_buf,some recv⟩ (show 0 < length by omega) short
  have within : i < (window (stored env 0 length) 0 length).length := by
    rw [window_length]
    exact inside
  have at_i := store_at recv 0 within
  rw [Nat.zero_add,window_getElem,Nat.zero_add] at at_i
  rw [one,Option.map_some,load_recv]
  exact at_i

/-- Whatever is shifted in and whatever the buffer held, the bytes are stored in
    their order exactly when they fit in one load, and a last group of three begins
    at a multiple of three. -/
theorem receive_iff (length : Nat) (send_buf : Option Mem) :
    (∀ (env : Env) (recv : Mem), ∀ i < length,
        (uc8088_spi_spixfer env ⟨length,send_buf,some recv⟩).1.recv i = env.incoming i)
      ↔ length ≤ 32 ∧ (length % 4 = 3 → length/4 % 3 = 0) := by
  constructor
  · intro faithful
    have short : length ≤ 32 := by
      by_contra long
      -- the byte behind the first load is never stored
      have kept := pieces_recv_outside ⟨fun _ => 1,fun _ => 0⟩ ⟨length,send_buf,some fun _ => 0⟩ rfl (i := 32)
        (by decide) length ⟨[],0,fun _ => 0⟩ (Nat.le_refl length) (by simp)
      have wanted := faithful ⟨fun _ => 1,fun _ => 0⟩ (fun _ => 0) 32 (by omega)
      have both : (0 : UInt8) = 1 := kept.symm.trans wanted
      exact absurd both (by decide)
    refine ⟨short,?_⟩
    by_contra misaligned
    have three : length % 4 = 3 := (Classical.not_imp.mp misaligned).1
    -- only the byte that belongs there is told from the others
    obtain ⟨j,other,misplaced⟩ := stored_misplaced ⟨fun k => if k = length/4*4 then 1 else 0,fun _ => 0⟩ 0 short
      misaligned
    have wanted := faithful ⟨fun k => if k = length/4*4 then 1 else 0,fun _ => 0⟩ (fun _ => 0) (length/4*4) (by omega)
    rw [recv_load _ _ _ short (by omega),misplaced,Nat.zero_add] at wanted
    simp [other] at wanted
  · rintro ⟨short,aligned⟩ env recv i inside
    rw [recv_load env send_buf recv short inside,stored_exact env 0 short aligned inside,Nat.zero_add]

/-- Of seven bytes the last three are wrong: the last group is read from places 4, 3
    and 8. Of 33 bytes the last one is stored over the first. -/
theorem receive_misplaces :
    window (uc8088_spi_spixfer ⟨fun j => UInt8.ofNat (j+1),fun _ => 0⟩ ⟨7,none,some fun _ => 0⟩).1.recv 0 7
        = [1,2,3,4,7,1,0xff]
      ∧ window (uc8088_spi_spixfer ⟨fun j => UInt8.ofNat (j+1),fun _ => 0⟩ ⟨33,none,some fun _ => 0⟩).1.recv 0 33
        = 33 :: window (fun j => UInt8.ofNat (j+1)) 1 31 ++ [0] := by
  decide +kernel

end Ucm108e.Spim
