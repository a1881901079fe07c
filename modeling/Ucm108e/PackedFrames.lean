import Ucm108e.Dlt645
import Ucm108e.Gdw13762

/-!
What the packers hand out, for any bytes on the line and any polling. A frame
opens with the bytes its packer keeps, a head and a header, and is as long as
the header says, unless that length does not fit the 16 bits of `now_len`. The
search of `parse_frame` for the preamble then finds the head where the packer
has found it.
-/
namespace Ucm108e.PackedFrames
open Ucm108e.Bytes Ucm108e.Machine Ucm108e.Framing Ucm108e.Access Ucm108e.Packer Ucm108e.Codec
set_option linter.unusedSimpArgs false

/-- `k` bytes that are kept, a head, and `n` bytes of header to follow. -/
structure Opened (p : Packing) (m : Mem) (k n : Nat) : Prop where
  kept : ∀ i < k, p.head (i+1) (m i) = .again
  head : p.head (k+1) (m k) = .found n

def total (p : Packing) (m : Mem) (k n : Nat) : Nat := k+1+n+p.rest m (k+1+n)

def Wrapped (p : Packing) (len : Nat) : Prop :=
  ∃ m k n, Opened p m k n ∧ 65536 ≤ total p m k n ∧ len % 65536 = total p m k n % 65536

/-- The bytes stored so far, the header among them, and those to come make up
    the frame. -/
def Counted (p : Packing) (m : Mem) (now need : Nat) : Prop :=
  ∃ k n, Opened p m k n ∧ k+1+n ≤ now ∧ now+need = total p m k n

/-- The bytes stored so far and those to come, behind the header. -/
def Body (p : Packing) (m : Mem) (now need : Nat) : Prop := Counted p m now need ∨ Wrapped p (now+need)

/-- What the buffer holds before every call. -/
structure Holds (p : Packing) (s : PackState) : Prop where
  step0 : s.parse_step = .step0 → ∀ i < s.now_len, p.head (i+1) (s.out_buf i) = .again
  step1 : s.parse_step = .step1 → ∃ k n, Opened p s.out_buf k n ∧ k < s.now_len ∧ s.now_len+s.need_len = k+1+n
  step2 : s.parse_step = .step2 → Body p s.out_buf s.now_len s.need_len

/-- A frame as long as its header says, or one whose length has wrapped. -/
def Handed (p : Packing) (f : Packed) : Prop := f.out_len < 65536 ∧ Body p f.out_buf f.out_len 0

section
variable {p : Packing}

theorem opened_store {m : Mem} {k n a : Nat} (opened : Opened p m k n) (r : List UInt8) (behind : k < a) :
    Opened p (store m a r) k n := by
  constructor
  · intro i lt
    rw [store_below r (by omega)]
    exact opened.kept i lt
  · rw [store_below r behind]
    exact opened.head

theorem total_store {m : Mem} {k n a : Nat} (opened : Opened p m k n) (r : List UInt8) (behind : k+1+n ≤ a) :
    total p (store m a r) k n = total p m k n := by
  have header := p.found_le _ _ _ opened.head
  rw [total,p.rest_local _ m _ (by omega) (fun i lt => store_below r (by omega)),total]

theorem counted_store {m : Mem} {now need : Nat} (counted : Counted p m now need) (narrow : now+need < 65536)
    {r : List UInt8} (few : r.length ≤ need) :
    Counted p (store m now r) ((now+r.length) % 65536) (need-r.length) := by
  obtain ⟨k,n,opened,header,whole⟩ := counted
  exact ⟨k,n,opened_store opened r (by omega),by omega,by rw [total_store opened r header]; omega⟩

theorem body_store {m : Mem} {now need : Nat} (body : Body p m now need) {r : List UInt8} (few : r.length ≤ need) :
    Body p (store m now r) ((now+r.length) % 65536) (need-r.length) := by
  have ends : ((now+r.length) % 65536+(need-r.length)) % 65536 = (now+need) % 65536 := by omega
  rcases body with counted | ⟨m',k,n,opened,large,same⟩
  · rcases Nat.lt_or_ge (now+need) 65536 with narrow | wide
    · exact .inl (counted_store counted narrow few)
    · obtain ⟨k,n,opened,_,whole⟩ := counted
      exact .inr ⟨m,k,n,opened,by omega,by rw [ends,whole]⟩
  · exact .inr ⟨m',k,n,opened,large,by rw [ends,same]⟩

theorem holds_init (buf : Mem) : Holds p (packInit buf) := by
  constructor <;> simp [packInit]

theorem holds_restart (s : PackState) : Holds p (restart s) := by
  constructor <;> simp [restart]

theorem holds_count {s : PackState} (holds : Holds p s) : Holds p (countPoll s) := by
  unfold countPoll
  split
  · exact holds_restart _
  · exact ⟨holds.step0,holds.step1,holds.step2⟩

theorem kept_store {m : Mem} {now : Nat} (kept : ∀ i < now, p.head (i+1) (m i) = .again) (r : List UInt8) :
    ∀ i < now, p.head (i+1) (store m now r i) = .again := by
  intro i lt
  rw [store_below r lt]
  exact kept i lt

theorem store_last (m : Mem) (a : Nat) (b : UInt8) : store m a [b] a = b := by
  simp [store]

/-- With its header, the length of a frame is known. -/
theorem counted_header {s : PackState} {r : List UInt8} (shape : Shape s) (holds : Holds p s) (at1 : s.parse_step = .step1)
    (all : r.length = s.need_len) :
    Counted p (filled s r).out_buf (filled s r).now_len (p.rest (store s.out_buf s.now_len r) (s.now_len+r.length)) := by
  obtain ⟨k,n,opened,behind,ends⟩ := holds.step1 at1
  have bound := shape.step1 at1
  have whole : s.now_len+r.length = k+1+n := by omega
  have small : (k+1+n) % 65536 = k+1+n := Nat.mod_eq_of_lt (by omega)
  refine ⟨k,n,opened_store opened r behind,?_⟩
  simp only [filled,small,whole,total,Nat.le_refl,true_and]

theorem holds_poll (s : PackState) (r : List UInt8) (shape : Shape s) (holds : Holds p s) (served : Served s r) :
    Holds p (packFrame p s r).1 := by
  have poll := poll_cases p shape served
  generalize packFrame p s r = next at poll ⊢
  cases poll with
  | idle at0 => exact ⟨holds.step0,holds.step1,holds.step2⟩
  | again at0 b head =>
    refine ⟨fun _ i lt => ?_,by simp [at0],by simp [at0]⟩
    rcases Nat.lt_succ_iff_lt_or_eq.mp lt with before | rfl
    · exact kept_store (holds.step0 at0) [b] i before
    · simp only [store_last,head]
  | dropped at0 b head => exact ⟨by simp,by simp [at0],by simp [at0]⟩
  | found at0 b n head =>
    have opened : Opened p (store s.out_buf s.now_len [b]) s.now_len n :=
      ⟨kept_store (holds.step0 at0) [b],by rw [store_last,head]⟩
    exact ⟨by simp,fun _ => ⟨s.now_len,n,opened,by simp⟩,by simp⟩
  | header at1 _ few =>
    obtain ⟨k,n,opened,behind,ends⟩ := holds.step1 at1
    have bound := shape.step1 at1
    have small : (s.now_len+r.length) % 65536 = s.now_len+r.length := Nat.mod_eq_of_lt (by omega)
    apply holds_count
    refine ⟨by simp [filled,at1],fun _ => ⟨k,n,opened_store opened r behind,?_⟩,by simp [filled,at1]⟩
    simp only [filled,small]
    omega
  | announced at1 _ all =>
    apply holds_count
    exact ⟨by simp,by simp,fun _ => .inl (counted_header shape holds at1 all)⟩
  | body at2 _ few =>
    apply holds_count
    exact ⟨by simp [filled,at2],by simp [filled,at2],fun _ => body_store (holds.step2 at2) served⟩
  | finished at2 _ all => exact holds_count (holds_restart _)

theorem shape_holds_poll (s : PackState) (r : List UInt8) (inv : Shape s ∧ Holds p s) (served : Served s r) :
    Shape (packFrame p s r).1 ∧ Holds p (packFrame p s r).1 :=
  ⟨shape_poll p s r inv.1 served,holds_poll s r inv.1 inv.2 served⟩

/-- A call hands out nothing but the buffer, with the last bytes of a frame. -/
theorem poll_emits {s : PackState} {r : List UInt8} (shape : Shape s) (served : Served s r) {f : Packed}
    (emitted : (packFrame p s r).2 = some f) : s.parse_step = .step2 ∧ r.length = s.need_len ∧
      f = ⟨store s.out_buf s.now_len r,(s.now_len+r.length) % 65536⟩ := by
  have poll := poll_cases p shape served
  generalize packFrame p s r = next at poll emitted
  cases poll with
  | finished at2 _ all => cases emitted; exact ⟨at2,all,rfl⟩
  | _ => cases emitted

theorem handed_poll {s : PackState} {r : List UInt8} (shape : Shape s) (holds : Holds p s) (served : Served s r)
    {f : Packed} (emitted : (packFrame p s r).2 = some f) : Handed p f := by
  obtain ⟨step,all,rfl⟩ := poll_emits shape served emitted
  have body := body_store (holds.step2 step) served
  have done : s.need_len-r.length = 0 := by omega
  rw [done] at body
  exact ⟨Nat.mod_lt _ (by decide),body⟩

/-- Every frame that a run hands out is as long as its header says, or has wrapped. -/
theorem handed {buf : Mem} {reads : List (List UInt8)} (served : Along (packFrame p) Served (packInit buf) reads) :
    ∀ f ∈ outputs (packFrame p) (packInit buf) reads, Handed p f := by
  refine outputs_invariant shape_holds_poll ?_ ⟨shape_init buf,holds_init buf⟩ served
  intro s r f inv served emitted
  exact handed_poll inv.1 inv.2 served emitted
end

/-! ### The frames of the two protocols -/

/-- A 645 frame behind at most four preamble bytes. -/
structure Framed645 (m : Mem) (len k : Nat) : Prop where
  few : k ≤ 4
  preamble : ∀ i < k, m i = 0xFE
  head : m k = 0x68
  length : len = k+12+(m (k+9)).toNat

theorem opened645 {m : Mem} {k n : Nat} (opened : Opened packing645 m k n) :
    k ≤ 4 ∧ (∀ i < k, m i = 0xFE) ∧ m k = 0x68 ∧ n = 9 := by
  have preamble : ∀ i < k, m i = 0xFE ∧ i+1 ≤ 4 := by
    intro i lt
    have kept := opened.kept i lt
    simp only [packing645] at kept
    split_ifs at kept
    exact ⟨by assumption,by assumption⟩
  have head := opened.head
  simp only [packing645] at head
  split_ifs at head with fe fe' found
  cases head
  refine ⟨?_,fun i lt => (preamble i lt).1,found,rfl⟩
  by_contra many
  have := (preamble (k-1) (by omega)).2
  omega

theorem total645 {m : Mem} {k : Nat} (few : k ≤ 4) : total packing645 m k 9 = k+12+(m (k+9)).toNat := by
  have small := (m (k+9)).toNat_lt
  have last : k+1+9-1 = k+9 := by omega
  simp only [total,packing645,last,u16]
  omega

theorem counted645 {m : Mem} {len : Nat} (counted : Counted packing645 m len 0) : ∃ k, Framed645 m len k := by
  obtain ⟨k,n,opened,_,whole⟩ := counted
  obtain ⟨few,preamble,head,rfl⟩ := opened645 opened
  exact ⟨k,few,preamble,head,by rw [← total645 few,← whole,Nat.add_zero]⟩

theorem handed645 {f : Packed} (handed : Handed packing645 f) : ∃ k, Framed645 f.out_buf f.out_len k := by
  rcases handed.2 with counted | ⟨m,k,n,opened,large,_⟩
  · exact counted645 counted
  · obtain ⟨few,_,_,rfl⟩ := opened645 opened
    have small := (m (k+9)).toNat_lt
    rw [total645 few] at large
    omega

theorem decodeCall645 (cfg : Config) (block : Dlt645.SDlt645Format) {m : Mem} {len k : Nat} (framed : Framed645 m len k) :
    decodeCall (Dlt645.protocol645 cfg) block m len =
      some (len-k,Dlt645.dlt_645_decode cfg (shift m k) (len-k) (Dlt645.memset cfg block)) := by
  obtain ⟨few,preamble,head,length⟩ := framed
  have small := (m (k+9)).toNat_lt
  have location : precodeScan m len 0 = some k := by
    have := @precodeScan_preamble m k 0 few (by simpa using preamble) (by simpa using head) len (by omega)
    simpa using this
  have narrow : i16 k = k := by unfold i16; split <;> omega
  have rest : u16 ((len : Int)-k) = len-k := u16_eq (by omega) (by omega)
  simp [decodeCall,Dlt645.protocol645,Dlt645.dlt645_precode_detect,location,narrow,rest]

/-- A 1376.2 frame that is as long as its length field says. -/
structure Framed13762 (m : Mem) (len : Nat) : Prop where
  head : m 0 = 0x68
  length : (Gdw13762.lengthField m).toNat = len
  header : 3 ≤ len

theorem opened13762 {m : Mem} {k n : Nat} (opened : Opened packing13762 m k n) : k = 0 ∧ m 0 = 0x68 ∧ n = 2 := by
  have first : k = 0 := by
    by_contra some
    have kept := opened.kept 0 (by omega)
    simp only [packing13762] at kept
    split_ifs at kept
  subst first
  have head := opened.head
  simp only [packing13762] at head
  split_ifs at head with found
  cases head
  exact ⟨rfl,found,rfl⟩

theorem total13762 (m : Mem) :
    total packing13762 m 0 2 = 3+u16 ((Gdw13762.lengthField m).toNat-3) := by
  simp [total,packing13762,Gdw13762.lengthField]

theorem counted13762 {m : Mem} {len : Nat} (small : len < 65536) (counted : Counted packing13762 m len 0) :
    Framed13762 m len := by
  obtain ⟨k,n,opened,_,whole⟩ := counted
  obtain ⟨rfl,head,rfl⟩ := opened13762 opened
  have wide := (Gdw13762.lengthField m).toNat_lt
  rw [total13762] at whole
  unfold u16 at whole
  exact ⟨head,by omega,by omega⟩

theorem handed13762 {f : Packed} (handed : Handed packing13762 f) :
    Framed13762 f.out_buf f.out_len ∨ f.out_len < 3 := by
  rcases handed.2 with counted | ⟨m,k,n,opened,large,same⟩
  · exact .inl (counted13762 handed.1 counted)
  · obtain ⟨rfl,_,rfl⟩ := opened13762 opened
    have small := handed.1
    have wide := (Gdw13762.lengthField m).toNat_lt
    rw [total13762] at large same
    unfold u16 at large same
    omega

theorem scan13762 {m : Mem} {len : Nat} (framed : Framed13762 m len) : precodeScan m len 0 = some 0 := by
  have header := framed.header
  exact @precodeScan_preamble m 0 0 (by omega) (by simp) (by simpa using framed.head) len (by omega)

theorem decodeCall13762 (cfg : Config) (block : Gdw13762.S13762Format) {m : Mem} {len : Nat} (small : len < 65536)
    (framed : Framed13762 m len) :
    decodeCall (Gdw13762.protocol13762 cfg) block m len =
      some (len,Gdw13762.gdw_1376_2_decode m len (Gdw13762.memset cfg block)) := by
  have rest : u16 (len : Int) = len := u16_eq rfl small
  simp [decodeCall,Gdw13762.protocol13762,Gdw13762.gdw1376_2_precode_detect,scan13762 framed,rest]

end Ucm108e.PackedFrames
