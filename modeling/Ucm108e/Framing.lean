import Ucm108e.Machine

/-!
Framing of a stream of symbols, one symbol at a time: symbols outside a frame
are held or dropped until a head is found, a header of known length follows,
and the header says how long the rest of the frame is. Nothing here depends on
how the symbols arrive, which makes it what every way of polling is compared
with.
-/
namespace Ucm108e.Framing
open Ucm108e.Machine

variable {α : Type}

/-- What the symbols held outside a frame lead to: reading on, dropping them,
    or a frame whose header lacks `missing` more symbols. -/
inductive Head where
  | again
  | restart
  | found (missing : Nat)
  deriving DecidableEq, Repr

/-- How heads are recognised, and how many symbols follow a header. -/
structure Scheme (α : Type) where
  head : List α → Head
  rest : List α → Nat

inductive Part where
  | header
  | body
  deriving DecidableEq, Repr

/-- Outside any frame, or in a part of one that lacks `missing` more symbols. -/
inductive Phase where
  | outside
  | inside (part : Part) (missing : Nat)
  deriving DecidableEq, Repr

/-- The symbols of the frame so far, and where in it they end. -/
structure Framer (α : Type) where
  phase : Phase
  held : List α

def idle : Framer α := ⟨.outside,[]⟩

/-- A part is complete: the frame goes on, or is given out. -/
def complete (c : Scheme α) : Part → List α → Framer α × Option (List α)
  | .header, held => if c.rest held = 0 then (idle,some held) else (⟨.inside .body (c.rest held),held⟩,none)
  | .body, held => (idle,some held)

/-- One more symbol; a frame is given out with its last one. -/
def feed (c : Scheme α) (f : Framer α) (x : α) : Framer α × Option (List α) :=
  let held := f.held ++ [x]
  match f.phase with
  | .outside =>
    match c.head held with
    | .again => (⟨.outside,held⟩,none)
    | .restart => (idle,none)
    | .found n => (⟨.inside .header n,held⟩,none)
  | .inside part n => if n ≤ 1 then complete c part held else (⟨.inside part (n-1),held⟩,none)

def frames (c : Scheme α) (xs : List α) : List (List α) := outputs (feed c) idle xs

section
variable (c : Scheme α)

theorem feed_some (part : Part) {n : Nat} {held xs : List α} (few : xs.length < n) :
    final (feed c) ⟨.inside part n,held⟩ xs = ⟨.inside part (n-xs.length),held ++ xs⟩ ∧
      outputs (feed c) ⟨.inside part n,held⟩ xs = [] := by
  induction xs generalizing n held with
  | nil => simp [final,outputs]
  | cons x rest ih =>
    simp only [List.length_cons] at few
    have long : ¬ n ≤ 1 := by omega
    have later := @ih (n-1) (held ++ [x]) (by omega)
    simp only [final,outputs,feed,long,if_false,later,List.append_assoc,List.singleton_append,Option.toList_none,
      List.nil_append,List.length_cons,and_true]
    congr 2
    omega

theorem feed_all (part : Part) {held xs : List α} (nonempty : 0 < xs.length) :
    final (feed c) ⟨.inside part xs.length,held⟩ xs = (complete c part (held ++ xs)).1 ∧
      outputs (feed c) ⟨.inside part xs.length,held⟩ xs = (complete c part (held ++ xs)).2.toList := by
  obtain ⟨ys,x,rfl⟩ := (List.eq_nil_or_concat xs).resolve_left (List.ne_nil_of_length_pos nonempty)
  have before := @feed_some _ c part (ys.length+1) held ys (by omega)
  simp [final_append,outputs_append,before,final,outputs,feed]
end

/-! ### Streams made of frames -/

/-- Symbols that find no head, and what they leave held. -/
structure Leads (c : Scheme α) (lead held : List α) : Prop where
  outside : ∀ j ≤ lead.length, (final (feed c) idle (lead.take j)).phase = .outside
  ends : final (feed c) idle lead = ⟨.outside,held⟩
  silent : outputs (feed c) idle lead = []

/-- A frame as it stands in a stream: the symbols in front of it, of which
    `kept` are held when the head comes, then the frame in its parts. -/
structure Segment (α : Type) where
  lead : List α
  kept : List α
  head : α
  header : List α
  body : List α

namespace Segment

def frame (g : Segment α) : List α := g.head :: (g.header ++ g.body)

def symbols (g : Segment α) : List α := g.lead ++ g.frame

def out (g : Segment α) : List α := g.kept ++ g.frame

/-- The head is recognised behind the lead, and the header announces the body. -/
structure Ok (c : Scheme α) (g : Segment α) : Prop where
  leads : Leads c g.lead g.kept
  found : c.head (g.kept ++ [g.head]) = .found g.header.length
  header : 0 < g.header.length
  rest : c.rest (g.kept ++ g.head :: g.header) = g.body.length
  body : 0 < g.body.length

theorem frame_length (g : Segment α) : g.frame.length = 1+g.header.length+g.body.length := by
  simp only [frame,List.length_cons,List.length_append]
  omega

theorem symbols_length (g : Segment α) : g.symbols.length = g.lead.length+g.frame.length := by
  simp [symbols]
end Segment

section
variable {c : Scheme α} {g : Segment α} (ok : g.Ok c)
include ok

theorem segment_head : final (feed c) idle (g.lead ++ [g.head]) = ⟨.inside .header g.header.length,g.kept ++ [g.head]⟩ ∧
    outputs (feed c) idle (g.lead ++ [g.head]) = [] := by
  simp [final_append,outputs_append,ok.leads.ends,ok.leads.silent,final,outputs,feed,ok.found]

theorem segment_header :
    final (feed c) idle (g.lead ++ g.head :: g.header) =
      ⟨.inside .body g.body.length,g.kept ++ g.head :: g.header⟩ ∧
    outputs (feed c) idle (g.lead ++ g.head :: g.header) = [] := by
  have split : g.lead ++ g.head :: g.header = (g.lead ++ [g.head]) ++ g.header := by simp
  have joined : g.kept ++ [g.head] ++ g.header = g.kept ++ g.head :: g.header := by simp
  have first := segment_head ok
  have all := @feed_all _ c .header (g.kept ++ [g.head]) g.header ok.header
  have some : ¬ g.body.length = 0 := by have := ok.body; omega
  rw [split,final_append,outputs_append,first.1,first.2,all.1,all.2,joined,complete,ok.rest,if_neg some]
  exact ⟨rfl,rfl⟩

theorem segment_symbols :
    final (feed c) idle g.symbols = idle ∧ outputs (feed c) idle g.symbols = [g.out] := by
  have split : g.symbols = (g.lead ++ g.head :: g.header) ++ g.body := by simp [Segment.symbols,Segment.frame]
  have before := segment_header ok
  have all := @feed_all _ c .body (g.kept ++ g.head :: g.header) g.body ok.body
  rw [split,final_append,outputs_append,before.1,before.2,all.1,all.2]
  exact ⟨rfl,by simp [complete,Segment.out,Segment.frame]⟩

/-- Where a proper part of the frame leads. -/
theorem segment_inside {j : Nat} (some : 0 < j) (proper : j < g.frame.length) :
    ∃ part m, final (feed c) idle (g.lead ++ g.frame.take j) = ⟨.inside part m,g.kept ++ g.frame.take j⟩ ∧
      j+m ≤ g.frame.length ∧ (part = .header → j+m < g.frame.length) := by
  have size := g.frame_length
  have body := ok.body
  obtain ⟨i,rfl⟩ : ∃ i, j = i+1 := ⟨j-1,by omega⟩
  rcases Nat.lt_or_ge i g.header.length with inHeader | inBody
  · have cut : g.frame.take (i+1) = [g.head] ++ g.header.take i := by
      simp [Segment.frame,List.take_append_of_le_length (Nat.le_of_lt inHeader)]
    have few : (g.header.take i).length = i := by simp; omega
    have fed := @feed_some _ c .header g.header.length (g.kept ++ [g.head]) (g.header.take i) (by omega)
    refine ⟨.header,g.header.length-i,?_,by omega,fun _ => by omega⟩
    rw [cut,← List.append_assoc,final_append,(segment_head ok).1,fed.1,few,List.append_assoc]
  · have cut : g.frame.take (i+1) = g.head :: g.header ++ g.body.take (i-g.header.length) := by
      simp [Segment.frame,List.take_append,List.take_of_length_le inBody]
    have few : (g.body.take (i-g.header.length)).length = i-g.header.length := by simp; omega
    have fed := @feed_some _ c .body g.body.length (g.kept ++ g.head :: g.header) (g.body.take (i-g.header.length))
      (by omega)
    refine ⟨.body,g.body.length-(i-g.header.length),?_,by omega,by simp⟩
    rw [cut,← List.append_assoc,final_append,(segment_header ok).1,fed.1,few,List.append_assoc]
end

/-- The head and the last position of every frame in a stream of segments that
    starts at position `o`. -/
def spans : Nat → List (Segment α) → List (Nat × Nat)
  | _, [] => []
  | o, g :: rest => (o+g.lead.length,o+g.symbols.length-1) :: spans (o+g.symbols.length) rest

/-- A stream of segments followed by symbols that find no head. -/
structure Stream (c : Scheme α) (segments : List (Segment α)) (trail : List α) : Prop where
  each : ∀ g ∈ segments, g.Ok c
  trail : ∃ held, Leads c trail held

def symbols (segments : List (Segment α)) (trail : List α) : List α := segments.flatMap Segment.symbols ++ trail

theorem symbols_cons (g : Segment α) (rest : List (Segment α)) (trail : List α) :
    symbols (g :: rest) trail = g.symbols ++ symbols rest trail := by
  simp [symbols]

section
variable {c : Scheme α} {g : Segment α} {segments : List (Segment α)} {trail : List α}

theorem Stream.tail (ok : Stream c (g :: segments) trail) : Stream c segments trail :=
  ⟨fun g member => ok.each g (List.mem_cons_of_mem _ member),ok.trail⟩

theorem Stream.first (ok : Stream c (g :: segments) trail) : g.Ok c := ok.each g (List.mem_cons_self ..)

/-- A stream gives out the frames of its segments. -/
theorem stream_frames (ok : Stream c segments trail) :
    frames c (symbols segments trail) = segments.map Segment.out := by
  induction segments with
  | nil =>
    obtain ⟨held,leads⟩ := ok.trail
    simpa [frames,symbols] using leads.silent
  | cons g rest ih =>
    have first := segment_symbols ok.first
    rw [frames,symbols_cons,outputs_append,first.1,first.2]
    simpa [frames] using ih ok.tail

theorem stream_at (first : g.Ok c) (j : Nat) :
    final (feed c) idle ((symbols (g :: segments) trail).take j) =
      if j < g.symbols.length then final (feed c) idle (g.symbols.take j)
      else final (feed c) idle ((symbols segments trail).take (j-g.symbols.length)) := by
  rw [symbols_cons]
  split
  · rw [List.take_append_of_le_length (by omega)]
  · rw [List.take_append,List.take_of_length_le (by omega),final_append,(segment_symbols first).1]

/-- Inside a frame, the position is past its head, the symbols that are missing
    end no later than the frame, and those of a header end before it. -/
theorem stream_inside (ok : Stream c segments trail) (o : Nat) {j m : Nat} {part : Part} {held : List α}
    (le : j ≤ (symbols segments trail).length)
    (inside : final (feed c) idle ((symbols segments trail).take j) = ⟨.inside part m,held⟩) :
    (∃ span ∈ spans o segments, span.1 < o+j ∧ o+j+m ≤ span.2+1 ∧ (part = .header → o+j+m ≤ span.2)) ∧
      ∃ g ∈ segments, held.length+m ≤ g.out.length := by
  induction segments generalizing o j with
  | nil =>
    obtain ⟨kept,leads⟩ := ok.trail
    have outside := leads.outside j (by simpa [symbols] using le)
    simp only [symbols,List.flatMap_nil,List.nil_append] at inside
    rw [inside] at outside
    cases outside
  | cons g rest ih =>
    have size := g.symbols_length
    rw [stream_at ok.first] at inside
    split at inside
    · rcases Nat.lt_or_ge g.lead.length j with inFrame | inLead
      · obtain ⟨part',m',reached,bound,short⟩ :=
          segment_inside ok.first (j := j-g.lead.length) (by omega) (by omega)
        have cut : g.symbols.take j = g.lead ++ g.frame.take (j-g.lead.length) := by
          rw [Segment.symbols,List.take_append,List.take_of_length_le (by omega)]
        rw [cut,reached] at inside
        cases inside
        have header : part = .header → o+j+m ≤ o+g.symbols.length-1 := fun same => by have := short same; omega
        refine ⟨⟨_,List.mem_cons_self ..,by simp only; omega,by simp only; omega,header⟩,g,List.mem_cons_self ..,?_⟩
        simp only [Segment.out,List.length_append,List.length_take]
        omega
      · have outside := ok.first.leads.outside j inLead
        rw [Segment.symbols,List.take_append_of_le_length inLead] at inside
        rw [inside] at outside
        cases outside
    · rw [symbols_cons,List.length_append] at le
      obtain ⟨⟨span,member,past,bound,header⟩,g',member',whole⟩ :=
        ih ok.tail (o+g.symbols.length) (j := j-g.symbols.length) (by omega) inside
      exact ⟨⟨span,List.mem_cons_of_mem _ member,by omega,by omega,fun same => by have := header same; omega⟩,
        g',List.mem_cons_of_mem _ member',whole⟩

theorem spans_start (segments : List (Segment α)) (o : Nat) : ∀ span ∈ spans o segments, o ≤ span.1 := by
  induction segments generalizing o with
  | nil => intro span member; cases member
  | cons g rest ih =>
    intro span member
    simp only [spans,List.mem_cons] at member
    rcases member with rfl | later
    · simp
    · have := ih (o+g.symbols.length) span later
      omega

/-- Past the head and up to the last symbol of a frame, the framer is inside it. -/
theorem stream_occupied (ok : Stream c segments trail) (o : Nat) {span : Nat × Nat} (member : span ∈ spans o segments)
    {j : Nat} (past : span.1 < o+j) (before : o+j ≤ span.2) :
    ∃ part m, (final (feed c) idle ((symbols segments trail).take j)).phase = .inside part m := by
  induction segments generalizing o j with
  | nil => cases member
  | cons g rest ih =>
    have size := g.symbols_length
    have frame := g.frame_length
    rw [stream_at ok.first]
    simp only [spans,List.mem_cons] at member
    rcases member with rfl | later
    · simp only at past before
      have cut : g.symbols.take j = g.lead ++ g.frame.take (j-g.lead.length) := by
        rw [Segment.symbols,List.take_append,List.take_of_length_le (by omega)]
      obtain ⟨part,m,reached,_⟩ := segment_inside ok.first (j := j-g.lead.length) (by omega) (by omega)
      rw [if_pos (by omega),cut,reached]
      exact ⟨part,m,rfl⟩
    · have start := spans_start rest (o+g.symbols.length) span later
      rw [if_neg (by omega)]
      exact ih ok.tail (o+g.symbols.length) later (by omega) (by omega)

theorem spans_disjoint (o : Nat) {x y : Nat × Nat} (memberX : x ∈ spans o segments) (memberY : y ∈ spans o segments)
    {j : Nat} (pastX : x.1 < j) (beforeX : j ≤ x.2) (pastY : y.1 < j) (beforeY : j ≤ y.2) : x = y := by
  induction segments generalizing o with
  | nil => cases memberX
  | cons g rest ih =>
    have size := g.symbols_length
    have frame := g.frame_length
    simp only [spans,List.mem_cons] at memberX memberY
    rcases memberX with rfl | laterX <;> rcases memberY with rfl | laterY
    · rfl
    · have start := spans_start rest _ y laterY
      simp only at beforeX
      omega
    · have start := spans_start rest _ x laterX
      simp only at beforeY
      omega
    · exact ih _ laterX laterY
end

end Ucm108e.Framing
