/-
Frames that a mark opens and a verdict closes.

A receiver waits for the mark, collects what follows it and stops at the first
item that decides the frame.  It can be driven item by item, or pull one frame
after the other off a finite stream.  Both report the same verdicts at the
same places, a well-formed frame is reported whenever it finds the receiver
waiting, and every report is a frame that did.
-/

import Mathlib.Data.List.Basic
import Stm32Bootloader.Library.TransitionRun

namespace Framing

open TransitionRun

/-! ### Machines that are driven item by item -/

section Machines

variable {State Other α β : Type}

abbrev Machine (State α β : Type) := State → α → State × Option β

def stateAfter (machine : Machine State α β) (state : State)
    (items : List α) : State :=
  run (fun state item => (machine state item).1) state items

def reports (machine : Machine State α β) : State → List α → List (Option β)
  | _, [] => []
  | state, item :: later =>
      (machine state item).2 :: reports machine (machine state item).1 later

/-- The verdicts among these reports, each with the number of items that have
been read by then. -/
def located : Nat → List (Option β) → List (Nat × β)
  | _, [] => []
  | position, none :: later => located (position + 1) later
  | position, some verdict :: later =>
      (position + 1, verdict) :: located (position + 1) later

@[simp] theorem stateAfter_nil (machine : Machine State α β)
    (state : State) : stateAfter machine state [] = state := rfl

@[simp] theorem stateAfter_cons (machine : Machine State α β)
    (state : State) (item : α) (later : List α) :
    stateAfter machine state (item :: later) =
      stateAfter machine (machine state item).1 later := rfl

theorem stateAfter_append (machine : Machine State α β) (state : State)
    (left right : List α) :
    stateAfter machine state (left ++ right) =
      stateAfter machine (stateAfter machine state left) right :=
  run_append _ _ left right

theorem reports_append (machine : Machine State α β) (state : State)
    (left right : List α) :
    reports machine state (left ++ right) =
      reports machine state left ++
        reports machine (stateAfter machine state left) right := by
  induction left generalizing state with
  | nil => rfl
  | cons item left ih =>
      rw [List.cons_append, reports, ih, reports, List.cons_append,
        stateAfter_cons]

theorem located_replicate (position count : Nat) (later : List (Option β)) :
    located position (List.replicate count none ++ later) =
      located (position + count) later := by
  induction count generalizing position with
  | zero => rfl
  | succ count ih =>
      rw [List.replicate_succ, List.cons_append, located, ih, Nat.add_assoc,
        Nat.add_comm 1 count]

/-- Machines whose steps agree on related states report the same. -/
theorem reports_simulation {machine : Machine State α β}
    {other : Machine Other α β} {related : State → Other → Prop}
    (kept : ∀ state state' item, related state state' →
      (machine state item).2 = (other state' item).2 ∧
        related (machine state item).1 (other state' item).1)
    {state : State} {state' : Other} (start : related state state')
    (items : List α) :
    reports machine state items = reports other state' items ∧
      related (stateAfter machine state items)
        (stateAfter other state' items) := by
  induction items generalizing state state' with
  | nil => exact ⟨rfl, start⟩
  | cons item later ih =>
      obtain ⟨same, next⟩ := kept state state' item start
      obtain ⟨rest, final⟩ := ih next
      exact ⟨congrArg₂ List.cons same rest, final⟩

/-- A reader that takes one verdict after the other off a stream. -/
def readAll (read : List α → Option (β × List α)) :
    Nat → Nat → List α → List (Nat × β)
  | 0, _, _ => []
  | fuel + 1, position, items =>
      match read items with
      | none => []
      | some (verdict, rest) =>
          let position := position + (items.length - rest.length)
          (position, verdict) :: readAll read fuel position rest

end Machines

/-! ### Grammars -/

structure Grammar (α β : Type) where
  mark : α
  /-- The verdict on a body, once its last item has decided it. -/
  judge : List α → Option β

/-- What has been collected since the mark; `none` while it waits for one. -/
abbrev Receiver (α : Type) := Option (List α)

section Grammars

variable {α β : Type} [DecidableEq α] (grammar : Grammar α β)

def Grammar.receive : Machine (Receiver α) α β
  | none, item => (if item = grammar.mark then some [] else none, none)
  | some body, item =>
      match grammar.judge (body ++ [item]) with
      | none => (some (body ++ [item]), none)
      | some verdict => (none, some verdict)

def Grammar.collect (body : List α) : List α → Option (β × List α)
  | [] => none
  | item :: later =>
      match grammar.judge (body ++ [item]) with
      | none => Grammar.collect (body ++ [item]) later
      | some verdict => some (verdict, later)

/-- Reads one frame, dropping what precedes its mark. -/
def Grammar.read (items : List α) : Option (β × List α) :=
  match items.dropWhile (· ≠ grammar.mark) with
  | [] => none
  | _mark :: later => grammar.collect [] later

/-- A frame whose verdict is decided by its last item. -/
inductive Grammar.Frames (verdict : β) : List α → Prop where
  | intro (body : List α) (last : α)
      (undecided : ∀ count, count ≤ body.length →
        grammar.judge (body.take count) = none)
      (decided : grammar.judge (body ++ [last]) = some verdict) :
      Grammar.Frames verdict (grammar.mark :: (body ++ [last]))

variable {grammar}

theorem receive_idle {items : List α} (noMark : grammar.mark ∉ items) :
    reports grammar.receive none items = List.replicate items.length none ∧
      stateAfter grammar.receive none items = none := by
  induction items with
  | nil => exact ⟨rfl, rfl⟩
  | cons item later ih =>
      rw [List.mem_cons, not_or] at noMark
      have stays : grammar.receive none item = (none, none) := by
        rw [Grammar.receive, if_neg (fun same => noMark.1 same.symm)]
      obtain ⟨rest, final⟩ := ih noMark.2
      rw [reports, stateAfter_cons, stays, rest]
      exact ⟨rfl, final⟩

theorem receive_undecided {body items : List α}
    (undecided : ∀ count, 0 < count → count ≤ items.length →
      grammar.judge (body ++ items.take count) = none) :
    reports grammar.receive (some body) items =
        List.replicate items.length none ∧
      stateAfter grammar.receive (some body) items =
        some (body ++ items) := by
  induction items generalizing body with
  | nil => exact ⟨rfl, congrArg some (List.append_nil body).symm⟩
  | cons item later ih =>
      have first := undecided 1 Nat.one_pos (Nat.le_add_left 1 _)
      rw [List.take_succ_cons, List.take_zero] at first
      have next : grammar.receive (some body) item =
          (some (body ++ [item]), none) := by
        simp only [Grammar.receive, first]
      have shifted : ∀ count, 0 < count → count ≤ later.length →
          grammar.judge (body ++ [item] ++ later.take count) = none := by
        intro count positive bound
        have longer := undecided (count + 1) (Nat.succ_pos _)
          (Nat.succ_le_succ bound)
        rwa [List.take_succ_cons, List.append_cons] at longer
      obtain ⟨rest, final⟩ := ih shifted
      rw [reports, stateAfter_cons, next, rest, final, List.append_assoc]
      exact ⟨rfl, rfl⟩

theorem Grammar.Frames.reported {verdict : β} {frame : List α}
    (frames : grammar.Frames verdict frame) :
    reports grammar.receive none frame =
        List.replicate (frame.length - 1) none ++ [some verdict] ∧
      stateAfter grammar.receive none frame = none := by
  obtain ⟨body, last, undecided, decided⟩ := frames
  have opened : grammar.receive none grammar.mark = (some [], none) := by
    rw [Grammar.receive, if_pos rfl]
  have open_ := @receive_undecided α β _ grammar [] body
    (fun count _positive bound => undecided count bound)
  obtain ⟨collected, reached⟩ := open_
  have closed : grammar.receive (some body) last = (none, some verdict) := by
    simp only [Grammar.receive, decided]
  rw [reports, stateAfter_cons, opened, reports_append, stateAfter_append,
    reached, collected, List.nil_append]
  simp only [reports, stateAfter_cons, stateAfter_nil, closed,
    List.length_cons, List.length_append, List.length_nil,
    Nat.add_sub_cancel, and_true]
  rw [List.replicate_succ, List.cons_append]

/-- Frames with gaps between them are all reported, and nothing else is. -/
theorem receive_frames {Entry : Type} (stream : List Entry)
    (gap frame : Entry → List α) (verdict : Entry → β)
    (gaps : ∀ entry, entry ∈ stream → grammar.mark ∉ gap entry)
    (frames : ∀ entry, entry ∈ stream →
      grammar.Frames (verdict entry) (frame entry)) :
    reports grammar.receive none
        (stream.flatMap fun entry => gap entry ++ frame entry) =
      (stream.flatMap fun entry =>
        List.replicate ((gap entry).length + ((frame entry).length - 1))
          none ++ [some (verdict entry)]) ∧
      stateAfter grammar.receive none
        (stream.flatMap fun entry => gap entry ++ frame entry) = none := by
  induction stream with
  | nil => exact ⟨rfl, rfl⟩
  | cons entry later ih =>
      obtain ⟨idle, waits⟩ := receive_idle (gaps entry List.mem_cons_self)
      obtain ⟨reported, ready⟩ :=
        (frames entry List.mem_cons_self).reported
      obtain ⟨rest, final⟩ := ih
        (fun other member => gaps other (List.mem_cons_of_mem _ member))
        (fun other member => frames other (List.mem_cons_of_mem _ member))
      have first : reports grammar.receive none (gap entry ++ frame entry) =
          List.replicate ((gap entry).length + ((frame entry).length - 1))
            none ++ [some (verdict entry)] := by
        rw [reports_append, idle, waits, reported, ← List.append_assoc,
          ← List.replicate_add]
      have between : stateAfter grammar.receive none
          (gap entry ++ frame entry) = none := by
        rw [stateAfter_append, waits, ready]
      rw [List.flatMap_cons, List.flatMap_cons, reports_append,
        stateAfter_append _ _ (gap entry ++ frame entry), between, first,
        rest]
      exact ⟨rfl, final⟩

theorem receive_history (items : List α) {body : List α}
    (collecting : stateAfter grammar.receive none items = some body) :
    ∃ earlier, items = earlier ++ grammar.mark :: body ∧
      stateAfter grammar.receive none earlier = none ∧
      ∀ count, 0 < count → count ≤ body.length →
        grammar.judge (body.take count) = none := by
  induction items using List.reverseRecOn generalizing body with
  | nil => cases collecting
  | append_singleton items item ih =>
      rw [stateAfter_append] at collecting
      cases before : stateAfter grammar.receive none items with
      | none =>
          rw [before] at collecting
          simp only [stateAfter_cons, stateAfter_nil, Grammar.receive]
            at collecting
          split at collecting
          · rename_i isMark
            cases collecting
            refine ⟨items, by rw [isMark], before, ?_⟩
            intro count positive bound
            exact absurd positive (Nat.not_lt.mpr bound)
          · cases collecting
      | some collected =>
          obtain ⟨earlier, itemsEq, waited, undecided⟩ := ih before
          rw [before] at collecting
          simp only [stateAfter_cons, stateAfter_nil, Grammar.receive]
            at collecting
          split at collecting
          · rename_i open_
            cases collecting
            refine ⟨earlier, ?_, waited, ?_⟩
            · rw [itemsEq, List.append_assoc, List.cons_append]
            · intro count positive bound
              rcases Nat.lt_or_ge collected.length count with beyond | inside
              · rw [List.take_of_length_le (by
                  rw [List.length_append, List.length_singleton]
                  omega)]
                exact open_
              · rw [List.take_append_of_le_length inside]
                exact undecided count positive inside
          · cases collecting

/-- Every verdict closes a frame whose mark found the receiver waiting. -/
theorem receive_sound (items : List α) (item : α) {verdict : β}
    (reported : (grammar.receive
      (stateAfter grammar.receive none items) item).2 = some verdict) :
    ∃ earlier body, items ++ [item] = earlier ++ grammar.mark :: body ∧
      stateAfter grammar.receive none earlier = none ∧
      grammar.judge body = some verdict := by
  cases before : stateAfter grammar.receive none items with
  | none =>
      rw [before] at reported
      cases reported
  | some body =>
      obtain ⟨earlier, itemsEq, waited, _undecided⟩ :=
        receive_history items before
      rw [before] at reported
      simp only [Grammar.receive] at reported
      split at reported
      · cases reported
      · rename_i found decided
        cases reported
        refine ⟨earlier, body ++ [item], ?_, waited, decided⟩
        rw [itemsEq, List.append_assoc, List.cons_append]

/-- A frame that is reported has found the receiver waiting, if no other frame
has its verdict. -/
theorem reported_waiting {history frame : List α} {verdict : β}
    (unique : ∀ body, grammar.judge body = some verdict →
      grammar.mark :: body = frame)
    (reported : (reports grammar.receive
        (stateAfter grammar.receive none history) frame).getLast? =
      some (some verdict)) :
    stateAfter grammar.receive none history = none := by
  rcases List.eq_nil_or_concat frame with rfl | ⟨front, last, rfl⟩
  · cases reported
  · rw [List.concat_eq_append] at reported unique
    rw [reports_append, List.getLast?_append] at reported
    have spoken : (grammar.receive (stateAfter grammar.receive none
        (history ++ front)) last).2 = some verdict := by
      rw [stateAfter_append]
      exact Option.some.inj reported
    obtain ⟨earlier, body, split, waited, decided⟩ :=
      receive_sound _ last spoken
    rw [unique body decided, List.append_assoc] at split
    rw [List.append_cancel_right split]
    exact waited

theorem receive_tail {body items : List α}
    (noMark : grammar.mark ∉ items.tail) :
    stateAfter grammar.receive (some body) items = some (body ++ items) ∨
      stateAfter grammar.receive (some body) items = none := by
  induction items generalizing body with
  | nil => exact Or.inl (congrArg some (List.append_nil body).symm)
  | cons item later ih =>
      rw [stateAfter_cons]
      simp only [Grammar.receive]
      cases grammar.judge (body ++ [item]) with
      | none =>
          have next := @ih (body ++ [item])
            fun member => noMark (List.mem_of_mem_tail member)
          rwa [List.append_assoc] at next
      | some verdict => exact Or.inr (receive_idle noMark).2

/-- A grammar that decides every body in time decides the one that is being
collected within as many items. -/
theorem receive_decides {limit : Nat}
    (bounded : ∀ body : List α, limit ≤ body.length → ∃ count, 0 < count ∧
      count ≤ body.length ∧ grammar.judge (body.take count) ≠ none)
    {body items : List α}
    (undecided : ∀ count, 0 < count → count ≤ body.length →
      grammar.judge (body.take count) = none)
    (long : limit ≤ body.length + items.length) :
    ∃ before item later verdict, items = before ++ item :: later ∧
      grammar.receive (stateAfter grammar.receive (some body) before) item =
        (none, some verdict) := by
  induction items generalizing body with
  | nil =>
      obtain ⟨count, positive, bound, decided⟩ := bounded body long
      exact absurd (undecided count positive bound) decided
  | cons item later ih =>
      cases judged : grammar.judge (body ++ [item]) with
      | some verdict =>
          refine ⟨[], item, later, verdict, rfl, ?_⟩
          simp only [stateAfter_nil, Grammar.receive, judged]
      | none =>
          have received : grammar.receive (some body) item =
              (some (body ++ [item]), none) := by
            simp only [Grammar.receive, judged]
          obtain ⟨before, last, after, verdict, split, decided⟩ :=
            @ih (body ++ [item])
              (by
                intro count positive bound
                rw [List.length_append, List.length_singleton] at bound
                rcases Nat.lt_or_ge body.length count with whole | early
                · rwa [List.take_of_length_le (by
                    rw [List.length_append, List.length_singleton]
                    omega)]
                · rw [List.take_append_of_le_length early]
                  exact undecided count positive early)
              (by
                rw [List.length_cons] at long
                rw [List.length_append, List.length_singleton]
                omega)
          refine ⟨item :: before, last, after, verdict, ?_, ?_⟩
          · rw [split, List.cons_append]
          · rw [stateAfter_cons, received]
            exact decided

/-- A grammar that decides every body in time loses nothing beyond that time,
unless there is a mark inside a frame. -/
theorem receive_ended {limit : Nat}
    (bounded : ∀ body : List α, limit ≤ body.length → ∃ count, 0 < count ∧
      count ≤ body.length ∧ grammar.judge (body.take count) ≠ none)
    (history : List α) (frames : List (List α × β))
    (wellFormed : ∀ entry, entry ∈ frames → grammar.Frames entry.2 entry.1)
    (noMark : ∀ entry, entry ∈ frames → grammar.mark ∉ entry.1.tail)
    (long : limit ≤ (frames.flatMap Prod.fst).length) :
    stateAfter grammar.receive none
      (history ++ frames.flatMap Prod.fst) = none := by
  have ended : ∀ receiver, stateAfter grammar.receive receiver
        (frames.flatMap Prod.fst) = none ∨
      ∃ body, receiver = some body ∧
        stateAfter grammar.receive receiver (frames.flatMap Prod.fst) =
          some (body ++ frames.flatMap Prod.fst) := by
    clear long
    intro receiver
    induction frames generalizing receiver with
    | nil =>
        cases receiver with
        | none => exact Or.inl rfl
        | some body =>
            exact Or.inr ⟨body, rfl, congrArg some (List.append_nil _).symm⟩
    | cons entry later ih =>
        have rest := ih
          (fun other member =>
            wellFormed other (List.mem_cons_of_mem _ member))
          (fun other member => noMark other (List.mem_cons_of_mem _ member))
        have closed : ∀ {receiver}, stateAfter grammar.receive receiver
            entry.1 = none →
            stateAfter grammar.receive receiver
              ((entry :: later).flatMap Prod.fst) = none := by
          intro receiver ready
          rw [List.flatMap_cons, stateAfter_append, ready]
          rcases rest none with final | ⟨body, impossible, _final⟩
          · exact final
          · cases impossible
        cases receiver with
        | none =>
            exact Or.inl
              (closed (wellFormed entry List.mem_cons_self).reported.2)
        | some body =>
            rcases @receive_tail α β _ grammar body entry.1
              (noMark entry List.mem_cons_self) with open_ | ready
            · rw [List.flatMap_cons, stateAfter_append, open_]
              rcases rest (some (body ++ entry.1)) with
                final | ⟨same, isSome, final⟩
              · exact Or.inl final
              · cases isSome
                rw [List.append_assoc] at final
                exact Or.inr ⟨body, rfl, final⟩
            · exact Or.inl (closed ready)
  rw [stateAfter_append]
  rcases ended (stateAfter grammar.receive none history) with
    final | ⟨body, start, final⟩
  · exact final
  · rw [← stateAfter_append] at final
    obtain ⟨_earlier, _split, _waited, undecided⟩ :=
      receive_history _ final
    obtain ⟨count, positive, bound, decided⟩ :=
      bounded (body ++ frames.flatMap Prod.fst) (by
        rw [List.length_append]
        omega)
    exact absurd (undecided count positive bound) decided

/-! ### Pulling and pushing agree -/

omit [DecidableEq α] in
theorem collect_open {body items : List α}
    (undecided : ∀ count, 0 < count → count ≤ items.length →
      grammar.judge (body ++ items.take count) = none) :
    grammar.collect body items = none := by
  induction items generalizing body with
  | nil => rfl
  | cons item later ih =>
      have first := undecided 1 Nat.one_pos (Nat.le_add_left 1 _)
      rw [List.take_succ_cons, List.take_zero] at first
      rw [Grammar.collect, first]
      refine ih fun count positive bound => ?_
      have next := undecided (count + 1) (Nat.succ_pos _)
        (Nat.succ_le_succ bound)
      rwa [List.take_succ_cons, List.append_cons] at next

omit [DecidableEq α] in
theorem collect_decided {body items : List α} {count : Nat} {verdict : β}
    (positive : 0 < count) (inside : count ≤ items.length)
    (undecided : ∀ earlier, 0 < earlier → earlier < count →
      grammar.judge (body ++ items.take earlier) = none)
    (decided : grammar.judge (body ++ items.take count) = some verdict) :
    grammar.collect body items = some (verdict, items.drop count) := by
  induction items generalizing body count with
  | nil => exact absurd inside (Nat.not_le_of_gt positive)
  | cons item later ih =>
      obtain ⟨count, rfl⟩ := Nat.exists_eq_succ_of_ne_zero
        (Nat.ne_of_gt positive)
      rw [List.take_succ_cons, List.append_cons] at decided
      rw [Grammar.collect, List.drop_succ_cons]
      rcases Nat.eq_zero_or_pos count with rfl | more
      · rw [List.take_zero, List.append_nil] at decided
        rw [decided, List.drop_zero]
      · have first := undecided 1 Nat.one_pos (Nat.succ_lt_succ more)
        rw [List.take_succ_cons, List.take_zero] at first
        rw [first]
        refine ih more (Nat.le_of_succ_le_succ inside)
          (fun earlier early before => ?_) decided
        have next := undecided (earlier + 1) (Nat.succ_pos _)
          (Nat.succ_lt_succ before)
        rwa [List.take_succ_cons, List.append_cons] at next

theorem collect_none {body items : List α}
    (open_ : grammar.collect body items = none) :
    reports grammar.receive (some body) items =
      List.replicate items.length none := by
  induction items generalizing body with
  | nil => rfl
  | cons item later ih =>
      rw [Grammar.collect] at open_
      cases decided : grammar.judge (body ++ [item]) with
      | none =>
          rw [decided] at open_
          have next : grammar.receive (some body) item =
              (some (body ++ [item]), none) := by
            simp only [Grammar.receive, decided]
          rw [reports, next, ih open_, List.length_cons,
            List.replicate_succ]
      | some verdict =>
          rw [decided] at open_
          cases open_

theorem collect_some {body items rest : List α} {verdict : β}
    (closed : grammar.collect body items = some (verdict, rest)) :
    rest.length < items.length ∧
      reports grammar.receive (some body) items =
        List.replicate (items.length - rest.length - 1) none ++
          some verdict :: reports grammar.receive none rest := by
  induction items generalizing body with
  | nil => cases closed
  | cons item later ih =>
      rw [Grammar.collect] at closed
      cases decided : grammar.judge (body ++ [item]) with
      | none =>
          rw [decided] at closed
          have next : grammar.receive (some body) item =
              (some (body ++ [item]), none) := by
            simp only [Grammar.receive, decided]
          obtain ⟨shorter, later_⟩ := ih closed
          refine ⟨Nat.lt_succ_of_lt shorter, ?_⟩
          have count : (item :: later).length - rest.length - 1 =
              (later.length - rest.length - 1) + 1 := by
            rw [List.length_cons]
            omega
          rw [reports, next, later_, count, List.replicate_succ]
          rfl
      | some found =>
          rw [decided] at closed
          cases closed
          have next : grammar.receive (some body) item =
              (none, some verdict) := by
            simp only [Grammar.receive, decided]
          refine ⟨Nat.lt_succ_self _, ?_⟩
          rw [reports, next, List.length_cons, Nat.add_sub_cancel_left]
          rfl

theorem mark_or_idle (items : List α) :
    (grammar.mark ∉ items ∧
      items.dropWhile (· ≠ grammar.mark) = []) ∨
    ∃ gap later, items = gap ++ grammar.mark :: later ∧
      grammar.mark ∉ gap ∧
      items.dropWhile (· ≠ grammar.mark) = grammar.mark :: later := by
  induction items with
  | nil => exact Or.inl ⟨List.not_mem_nil, rfl⟩
  | cons item later ih =>
      by_cases isMark : item = grammar.mark
      · refine Or.inr ⟨[], later, ?_, List.not_mem_nil, ?_⟩
        · rw [isMark, List.nil_append]
        · rw [List.dropWhile_cons_of_neg (by simp [isMark]), isMark]
      · have drops : (item :: later).dropWhile (· ≠ grammar.mark) =
            later.dropWhile (· ≠ grammar.mark) :=
          List.dropWhile_cons_of_pos (by simp [isMark])
        rw [drops]
        rcases ih with ⟨noMark, empty⟩ | ⟨gap, rest, split, noMark, found⟩
        · refine Or.inl ⟨?_, empty⟩
          rw [List.mem_cons, not_or]
          exact ⟨fun same => isMark same.symm, noMark⟩
        · refine Or.inr ⟨item :: gap, rest, ?_, ?_, found⟩
          · rw [split, List.cons_append]
          · rw [List.mem_cons, not_or]
            exact ⟨fun same => isMark same.symm, noMark⟩

theorem located_read (position : Nat) (items : List α) :
    match grammar.read items with
    | none => located position (reports grammar.receive none items) = []
    | some (verdict, rest) => rest.length < items.length ∧
        located position (reports grammar.receive none items) =
          (position + (items.length - rest.length), verdict) ::
            located (position + (items.length - rest.length))
              (reports grammar.receive none rest) := by
  have quiet : ∀ count, located position
      (List.replicate count (none : Option β)) = [] := by
    intro count
    have none_ := located_replicate position count ([] : List (Option β))
    rwa [List.append_nil] at none_
  rcases @mark_or_idle α β _ grammar items with
    ⟨noMark, empty⟩ | ⟨gap, later, split, noMark, found⟩
  · simp only [Grammar.read, empty]
    rw [(receive_idle noMark).1]
    exact quiet _
  · have opened : grammar.receive none grammar.mark = (some [], none) := by
      rw [Grammar.receive, if_pos rfl]
    obtain ⟨idle, waits⟩ := receive_idle noMark
    have pushed : reports grammar.receive none items =
        List.replicate (gap.length + 1) none ++
          reports grammar.receive (some []) later := by
      rw [split, reports_append, idle, waits, reports, opened,
        List.replicate_add, List.append_assoc]
      rfl
    have total : items.length = gap.length + 1 + later.length := by
      rw [split, List.length_append, List.length_cons]
      omega
    simp only [Grammar.read, found]
    cases pulled : grammar.collect [] later with
    | none =>
        rw [pushed, collect_none pulled, ← List.replicate_add]
        exact quiet _
    | some result =>
        obtain ⟨verdict, rest⟩ := result
        obtain ⟨shorter, later_⟩ := collect_some pulled
        refine ⟨by omega, ?_⟩
        have place : position + (gap.length + 1) +
            (later.length - rest.length - 1) + 1 =
              position + (items.length - rest.length) := by
          omega
        rw [pushed, later_, located_replicate, located_replicate, located,
          place]

/-- Pushing a stream and pulling frames off it report the same verdicts at the
same places. -/
theorem located_readAll (fuel position : Nat) (items : List α)
    (enough : items.length ≤ fuel) :
    located position (reports grammar.receive none items) =
      readAll grammar.read fuel position items := by
  induction fuel generalizing position items with
  | zero =>
      rw [List.length_eq_zero_iff.mp (Nat.le_zero.mp enough)]
      rfl
  | succ fuel ih =>
      have first := @located_read α β _ grammar position items
      rw [readAll]
      cases pulled : grammar.read items with
      | none =>
          rw [pulled] at first
          exact first
      | some result =>
          obtain ⟨verdict, rest⟩ := result
          rw [pulled] at first
          dsimp only at first ⊢
          rw [first.2, ih _ _ (by omega)]

end Grammars

/-! ### Frames fed back to back -/

section Losses

variable {State Other α β : Type}

/-- Whether each frame is reported with its last item. -/
def heard [DecidableEq β] (machine : Machine State α β) :
    State → List (List α × β) → List Bool
  | _, [] => []
  | state, (frame, verdict) :: later =>
      decide ((reports machine state frame).getLast? =
          some (some verdict)) ::
        heard machine (stateAfter machine state frame) later

theorem heard_simulation [DecidableEq β] {machine : Machine State α β}
    {other : Machine Other α β} {related : State → Other → Prop}
    (kept : ∀ state state' item, related state state' →
      (machine state item).2 = (other state' item).2 ∧
        related (machine state item).1 (other state' item).1)
    {state : State} {state' : Other} (start : related state state')
    (frames : List (List α × β)) :
    heard machine state frames = heard other state' frames := by
  induction frames generalizing state state' with
  | nil => rfl
  | cons entry later ih =>
      obtain ⟨same, next⟩ := reports_simulation kept start entry.1
      simp only [heard]
      rw [same, ih next]

variable [DecidableEq α] [DecidableEq β] {grammar : Grammar α β}

theorem heard_waiting (frames : List (List α × β))
    (wellFormed : ∀ entry, entry ∈ frames →
      grammar.Frames entry.2 entry.1) :
    heard grammar.receive none frames =
        List.replicate frames.length true ∧
      stateAfter grammar.receive none (frames.flatMap Prod.fst) = none := by
  induction frames with
  | nil => exact ⟨rfl, rfl⟩
  | cons entry later ih =>
      obtain ⟨reported, ready⟩ :=
        (wellFormed entry List.mem_cons_self).reported
      obtain ⟨rest, final⟩ := ih fun other member =>
        wellFormed other (List.mem_cons_of_mem _ member)
      rw [heard, reported, ready, rest, List.flatMap_cons,
        stateAfter_append, ready]
      refine ⟨?_, final⟩
      rw [List.getLast?_concat, decide_eq_true rfl]
      rfl

/-- The frames that are lost are the first ones, up to the first one that
finds the receiver waiting. -/
theorem heard_receive (history : List α) (frames : List (List α × β))
    (wellFormed : ∀ entry, entry ∈ frames → grammar.Frames entry.2 entry.1)
    (unique : ∀ entry, entry ∈ frames → ∀ body,
      grammar.judge body = some entry.2 → grammar.mark :: body = entry.1) :
    ∃ lost, lost ≤ frames.length ∧
      heard grammar.receive (stateAfter grammar.receive none history)
          frames =
        List.replicate lost false ++
          List.replicate (frames.length - lost) true ∧
      ∀ count, count < frames.length →
        (stateAfter grammar.receive none
            (history ++ (frames.take count).flatMap Prod.fst) = none ↔
          lost ≤ count) := by
  induction frames generalizing history with
  | nil =>
      exact ⟨0, Nat.le_refl 0, rfl,
        fun count bound => absurd bound (Nat.not_lt_zero count)⟩
  | cons entry later ih =>
      cases waiting : stateAfter grammar.receive none history with
      | none =>
          obtain ⟨all, _final⟩ := heard_waiting (entry :: later) wellFormed
          refine ⟨0, Nat.zero_le _, all, fun count _bound => ?_⟩
          obtain ⟨_all, reached⟩ := heard_waiting
            ((entry :: later).take count) fun other member =>
              wellFormed other (List.mem_of_mem_take member)
          rw [stateAfter_append, waiting, reached]
          exact iff_of_true rfl (Nat.zero_le _)
      | some body =>
          obtain ⟨lost, bound, rest, found⟩ := ih (history ++ entry.1)
            (fun other member =>
              wellFormed other (List.mem_cons_of_mem _ member))
            (fun other member =>
              unique other (List.mem_cons_of_mem _ member))
          have missed : ¬ (reports grammar.receive (some body)
              entry.1).getLast? = some (some entry.2) := by
            rw [← waiting]
            intro reported
            have waited := reported_waiting
              (unique entry List.mem_cons_self) reported
            rw [waiting] at waited
            cases waited
          refine ⟨lost + 1, Nat.succ_le_succ bound, ?_, ?_⟩
          · rw [stateAfter_append, waiting] at rest
            rw [heard, rest, decide_eq_false missed, List.length_cons,
              Nat.add_sub_add_right, List.replicate_succ, List.cons_append]
          · intro count inside
            cases count with
            | zero =>
                rw [List.take_zero, List.flatMap_nil, List.append_nil,
                  waiting]
                exact iff_of_false (Option.some_ne_none _)
                  (Nat.not_succ_le_zero _)
            | succ count =>
                rw [List.take_succ_cons, List.flatMap_cons,
                  ← List.append_assoc,
                  found count (Nat.lt_of_succ_lt_succ inside)]
                exact Nat.succ_le_succ_iff.symm

end Losses

end Framing
