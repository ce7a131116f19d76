/-
The transport of class Bootloader in tools/blflash.py.

A read returns up to the number of bytes that is asked for, so a frame may
arrive in any pieces.  The deadline is the number of turns that the reading
loops may still take.  Whatever the pieces are, an attempt that meets its
deadline sees the frames of the stream that the pieces make up.
-/

import Stm32Bootloader.Library.Pieces
import Stm32Bootloader.Tools.Blflash

namespace Stm32Bootloader.Blflash

open Interruptible LittleEndian Pieces

/-- A byte-oriented port.  One with a timeout may return nothing from a read
although more is to come. -/
structure SerialPort (σ : Type) where
  write : List U8 → Prog σ Unit
  read : Nat → σ → List U8 × σ
  resetInputBuffer : σ → σ
  hasTimeout : Bool

namespace SerialPort

variable {σ : Type} (port : SerialPort σ)

/-- `_read_exactly`, with what it has read so far. -/
def readExactly (count : Nat) (buffer : List U8) (turns : Nat) (state : σ) :
    Reading AttemptError σ (List U8) :=
  if buffer.length < count then
    match turns with
    | 0 => .failed .timeout state
    | turns + 1 =>
        let (chunk, state) := port.read (count - buffer.length) state
        if chunk ≠ [] then readExactly count (buffer ++ chunk) turns state
        else if ¬ port.hasTimeout then .failed .timeout state
        else readExactly count buffer turns state
  else .got buffer turns state

/-- Discards bytes until a start marker.  Every byte takes a turn. -/
def seekStart : Nat → Nat → σ → Reading AttemptError σ Unit
  | 0, _turns, state => .failed .timeout state
  | fuel + 1, turns, state =>
      (port.readExactly 1 [] turns state).bind fun byte turns state =>
        if byte.getD 0 0 = Blproto.sof then .got () turns state
        else seekStart fuel turns state

/-- `_read_frame`. -/
def readFrame (turns : Nat) (state : σ) : Reading AttemptError σ (U8 × List U8) :=
  (port.seekStart turns turns state).bind fun _start turns state =>
  (port.readExactly 3 [] turns state).bind fun head turns state =>
    let length := (word16At head 1).toNat
    if length > Blproto.maxPayload then
      .failed (.oversizedPayload length) state
    else
      let payload :=
        if length ≠ 0 then port.readExactly length [] turns state
        else .got [] turns state
      payload.bind fun payload turns state =>
      (port.readExactly 4 [] turns state).bind fun crc turns state =>
        match Blproto.decodeFrame ([Blproto.sof] ++ head ++ payload ++ crc) with
        | .ok frame => .got frame turns state
        | .error error => .failed (.malformed error) state

/-- The inner loop of `_transact`.  Every frame takes a turn. -/
def awaitFrame (cmd : U8) : Nat → Nat → σ → Reading AttemptError σ (List U8)
  | 0, _turns, state => .failed .timeout state
  | fuel + 1, turns, state =>
      (port.readFrame turns state).bind fun frame turns state =>
        if frame.1 = cmd then .got frame.2 turns state
        else awaitFrame cmd fuel turns state

/-- What is buffered before a request would be read as its answer. -/
def discardInput : Prog σ Unit := fun state =>
  .returned () (port.resetInputBuffer state)

/-- Waits for the response until the deadline. -/
def listen (turns : BlFrame → σ → Nat) (request : BlFrame) :
    Prog σ (List Received) := fun state =>
  let turns := turns request state
  let reading := port.awaitFrame request.cmd turns turns state
  .returned
    (match reading.outcome with
    | .ok data => [.frame request.cmd data]
    | .error error => [.failed error])
    reading.state

/-- One attempt of `_transact`. -/
def exchange (turns : BlFrame → σ → Nat) (request : BlFrame) :
    Prog σ (List Received) := do
  let bytes := (Blproto.encodeFrame request.cmd request.bytes).toOption.getD []
  port.discardInput
  port.write bytes
  port.listen turns request

def loader (turns : BlFrame → σ → Nat) (retries : Nat) : Bootloader σ :=
  ⟨port.exchange turns, retries⟩

end SerialPort

/-! ### Parsing a stream -/

abbrev FrameParse (α : Type) := Parse AttemptError U8 α

namespace FrameParse

def start : FrameParse Unit := fun stream =>
  match stream.dropWhile (· ≠ Blproto.sof) with
  | [] => none
  | _start :: rest => some (.ok (), rest)

def frame : FrameParse (U8 × List U8) :=
  start.bind fun _ => (Parse.exactly 3).bind fun head =>
    let length := (word16At head 1).toNat
    if length > Blproto.maxPayload then
      Parse.fail (.oversizedPayload length)
    else
      (Parse.exactly length).bind fun payload =>
      (Parse.exactly 4).bind fun crc =>
        match Blproto.decodeFrame ([Blproto.sof] ++ head ++ payload ++ crc) with
        | .ok frame => Parse.ok frame
        | .error error => Parse.fail (.malformed error)

/-- The first frame of this command, with fewer than so many before it. -/
def await (cmd : U8) : Nat → FrameParse (List U8)
  | 0 => fun _stream => none
  | fuel + 1 => frame.bind fun frame =>
      if frame.1 = cmd then Parse.ok frame.2 else await cmd fuel

end FrameParse

def Received.ofParsed : Except AttemptError (U8 × List U8) → Received
  | .ok (cmd, payload) => .frame cmd payload
  | .error error => .failed error

theorem parse_frame (stream : List U8) :
    (FrameParse.frame stream).map (Prod.map Received.ofParsed id) =
      readFrame stream := by
  unfold FrameParse.frame Parse.bind FrameParse.start readFrame
  cases found : stream.dropWhile (· ≠ Blproto.sof) with
  | nil => rfl
  | cons start rest =>
      have isSof : start = Blproto.sof := by
        have stops := List.head?_dropWhile_not
          (fun byte => decide (byte ≠ Blproto.sof)) stream
        rw [found] at stops
        simpa using stops
      subst isSof
      dsimp only
      unfold Parse.exactly
      by_cases short : rest.length < 3
      · rw [if_pos short, if_pos short]
        rfl
      rw [if_neg short, if_neg short]
      dsimp only
      have declared : word16At (rest.take 3) 1 = word16At rest 1 := by
        unfold word16At
        simp only [List.getD_eq_getElem?_getD, List.getElem?_take,
          Nat.reduceAdd, Nat.reduceLT, if_true]
      rw [declared]
      generalize (word16At rest 1).toNat = length
      by_cases long : length > Blproto.maxPayload
      · rw [if_pos long, if_pos long]
        rfl
      rw [if_neg long, if_neg long, List.length_drop]
      by_cases cut : rest.length < 3 + length + 4
      · rw [if_pos cut]
        by_cases cutPayload : rest.length - 3 < length
        · rw [if_pos cutPayload]
          rfl
        · rw [if_neg cutPayload]
          dsimp only
          rw [if_pos (by rw [List.length_drop, List.length_drop]; omega)]
          rfl
      · rw [if_neg cut, if_neg (by omega)]
        dsimp only
        rw [if_neg (by rw [List.length_drop, List.length_drop]; omega)]
        dsimp only
        have taken : [Blproto.sof] ++ rest.take 3 ++
            (rest.drop 3).take length ++
              ((rest.drop 3).drop length).take 4 =
            Blproto.sof :: rest.take (3 + length + 4) := by
          rw [List.take_add, List.take_add, List.drop_drop]
          simp only [List.cons_append, List.nil_append, List.append_assoc]
        have left : ((rest.drop 3).drop length).drop 4 =
            rest.drop (3 + length + 4) := by
          rw [List.drop_drop, List.drop_drop, Nat.add_assoc]
        rw [taken, left]
        cases Blproto.decodeFrame
          (Blproto.sof :: rest.take (3 + length + 4)) <;> rfl

theorem parse_frame_shorter {stream rest : List U8}
    {result : Except AttemptError (U8 × List U8)}
    (parsed : FrameParse.frame stream = some (result, rest)) :
    rest.length < stream.length := by
  have read := parse_frame stream
  rw [parsed, Option.map_some] at read
  unfold readFrame at read
  cases found : stream.dropWhile (· ≠ Blproto.sof) with
  | nil =>
      rw [found] at read
      cases read
  | cons start later =>
      have suffix := (List.dropWhile_suffix
        (fun byte => decide (byte ≠ Blproto.sof)) (l := stream)).length_le
      rw [found] at read suffix
      rw [List.length_cons] at suffix
      have taken : ∃ count, rest = later.drop count := by
        dsimp only at read
        split at read
        · cases read
        split at read
        · exact ⟨3, (congrArg Prod.snd (Option.some.inj read))⟩
        split at read
        · cases read
        · exact ⟨_, (congrArg Prod.snd (Option.some.inj read))⟩
      obtain ⟨count, restEq⟩ := taken
      rw [restEq, List.length_drop]
      omega

theorem parse_await_succ (cmd : U8) (fuel : Nat) (stream : List U8) :
    FrameParse.await cmd (fuel + 1) stream =
      (FrameParse.frame.bind fun frame =>
        if frame.1 = cmd then Parse.ok frame.2
        else FrameParse.await cmd fuel) stream := rfl

theorem parse_await_enough (cmd : U8) {fuel : Nat} {stream : List U8}
    (enough : stream.length ≤ fuel) :
    FrameParse.await cmd fuel stream = FrameParse.await cmd stream.length stream := by
  generalize size : stream.length = length at enough ⊢
  have bound : stream.length ≤ length := Nat.le_of_eq size
  clear size
  induction length generalizing fuel stream with
  | zero =>
      have empty := List.length_eq_zero_iff.mp (Nat.le_zero.mp bound)
      subst empty
      cases fuel with
      | zero => rfl
      | succ fuel => rfl
  | succ length ih =>
      obtain ⟨fuel, rfl⟩ := Nat.exists_eq_add_of_le' enough
      rw [← Nat.add_assoc, parse_await_succ, parse_await_succ]
      unfold Parse.bind
      cases parsed : FrameParse.frame stream with
      | none => rfl
      | some result =>
          obtain ⟨frame, rest⟩ := result
          have shorter := parse_frame_shorter parsed
          cases frame with
          | error error => rfl
          | ok frame =>
              dsimp only
              by_cases same : frame.1 = cmd
              · rw [if_pos same, if_pos same]
              · rw [if_neg same, if_neg same]
                exact ih (by omega) (by omega)

theorem awaitResponse_parse (cmd : U8) (fuel : Nat) (stream : List U8) :
    awaitResponse cmd (readFrames fuel stream) =
      ((FrameParse.await cmd fuel stream).map Prod.fst).getD
        (.error .timeout) := by
  induction fuel generalizing stream with
  | zero => rfl
  | succ fuel ih =>
      unfold readFrames
      rw [parse_await_succ, ← parse_frame]
      unfold Parse.bind
      cases FrameParse.frame stream with
      | none => rfl
      | some result =>
          obtain ⟨frame, rest⟩ := result
          cases frame with
          | error error => rfl
          | ok frame =>
              obtain ⟨responseCmd, data⟩ := frame
              simp only [Option.map_some, Prod.map, Received.ofParsed, id,
                awaitResponse]
              by_cases same : responseCmd = cmd
              · rw [if_pos same, if_pos same]
                rfl
              · rw [if_neg same, if_neg same]
                exact ih rest

/-! ### Reading is parsing -/

/-- The reads of the port hand out this stream in pieces, keep an invariant,
and come back empty while there is more only as often as they wait. -/
structure SerialPort.Delivers {σ : Type} (port : SerialPort σ)
    (stream : σ → List U8) (waits : σ → Nat) (invariant : σ → Prop) :
    Prop where
  bound : ∀ count state, invariant state →
    (port.read count state).1.length ≤ count
  split : ∀ count state, invariant state →
    (port.read count state).1 ++ stream (port.read count state).2 =
      stream state
  sooner : ∀ count state, invariant state →
    waits (port.read count state).2 ≤ waits state
  empty : ∀ count state, invariant state → 0 < count → stream state ≠ [] →
    (port.read count state).1 = [] →
    port.hasTimeout = true ∧ waits (port.read count state).2 < waits state
  kept : ∀ count state, invariant state →
    invariant (port.read count state).2

section Delivery

variable {σ : Type} {stream : σ → List U8} {waits : σ → Nat}
  {invariant : σ → Prop}

variable {port : SerialPort σ}
  (delivers : port.Delivers stream waits invariant)

include delivers

theorem readExactly_follows (count : Nat) (turns : Nat) (buffer : List U8)
    (state : σ) (holds : invariant state) (room : buffer.length ≤ count) :
    Reading.Follows .timeout stream waits invariant
      (fun bytes => if bytes.length < count - buffer.length then none
        else some (.ok (buffer ++ bytes.take (count - buffer.length)),
          bytes.drop (count - buffer.length)))
      turns state (port.readExactly count buffer turns state) := by
  induction turns generalizing buffer state with
  | zero =>
      unfold SerialPort.readExactly
      by_cases wanting : buffer.length < count
      · rw [if_pos wanting]
        refine .late state holds ?_
        by_cases short : (stream state).length < count - buffer.length
        · exact Or.inr (if_pos short)
        · exact Or.inl (by omega)
      · rw [if_neg wanting]
        have none_left : count - buffer.length = 0 := by omega
        refine .got buffer 0 state holds (Nat.le_refl _) ?_ (Nat.le_refl _)
        rw [none_left, if_neg (Nat.not_lt_zero _), List.take_zero,
          List.append_nil, List.drop_zero]
  | succ turns ih =>
      unfold SerialPort.readExactly
      by_cases wanting : buffer.length < count
      swap
      · rw [if_neg wanting]
        have none_left : count - buffer.length = 0 := by omega
        refine .got buffer _ state holds (Nat.le_refl _) ?_ (Nat.le_refl _)
        rw [none_left, if_neg (Nat.not_lt_zero _), List.take_zero,
          List.append_nil, List.drop_zero]
      rw [if_pos wanting]
      have bound := delivers.bound (count - buffer.length) state holds
      have split := delivers.split (count - buffer.length) state holds
      have sooner := delivers.sooner (count - buffer.length) state holds
      have empty := delivers.empty (count - buffer.length) state holds
        (by omega)
      have kept := delivers.kept (count - buffer.length) state holds
      generalize port.read (count - buffer.length) state = taken
        at bound split sooner empty kept ⊢
      obtain ⟨chunk, after⟩ := taken
      dsimp only at bound split sooner empty kept ⊢
      by_cases some_read : chunk ≠ []
      · have positive := List.length_pos_iff.mpr some_read
        rw [if_pos some_read]
        refine (ih (buffer ++ chunk) after kept (by
          rw [List.length_append]
          omega)).later ?_ sooner ?_
        · have rest : count - (buffer ++ chunk).length =
              count - buffer.length - chunk.length := by
            rw [List.length_append]
            omega
          have whole : count - buffer.length =
              chunk.length + (count - buffer.length - chunk.length) := by
            omega
          rw [rest, ← split, List.length_append]
          refine if_congr (by omega) rfl ?_
          rw [whole, List.take_length_add_append, List.drop_length_add_append,
            Nat.add_sub_cancel_left, List.append_assoc]
        · rw [← split, List.length_append]
          omega
      rw [if_neg some_read]
      rw [Decidable.not_not.mp some_read, List.nil_append] at split
      by_cases dry : stream state = []
      · -- Nothing is left to arrive, so no later read helps.
        have wants : (if (stream state).length < count - buffer.length then
            none
          else some ((.ok (buffer ++
              (stream state).take (count - buffer.length)),
            (stream state).drop (count - buffer.length)) :
              Except AttemptError (List U8) × List U8)) = none := by
          rw [dry]
          exact if_pos (by
            rw [List.length_nil]
            omega)
        by_cases timed : ¬ port.hasTimeout
        · rw [if_pos timed]
          exact .late after kept (Or.inr wants)
        · rw [if_neg timed]
          have follows := ih buffer after kept room
          generalize port.readExactly count buffer turns after = reading
            at follows ⊢
          rw [← split] at wants
          cases follows with
          | got value left final holds sooner parsed cost =>
              cases wants.symm.trans parsed
          | failed error final holds parsed =>
              cases wants.symm.trans parsed
          | late final holds short =>
              exact .late final holds (Or.inr (split ▸ wants))
      · obtain ⟨timed, fewer⟩ := empty dry (Decidable.not_not.mp some_read)
        rw [if_neg (not_not_intro timed)]
        refine (ih buffer after kept room).later ?_ sooner ?_
        · rw [split]
        · rw [split]
          omega

theorem readExactly_implements (count : Nat) :
    Reading.Implements .timeout stream waits invariant
      (port.readExactly count []) (Parse.exactly count) :=
  fun turns state holds =>
    readExactly_follows delivers count turns [] state holds (Nat.zero_le _)

theorem seekStart_follows (fuel turns : Nat) (state : σ)
    (holds : invariant state) :
    Reading.Follows .timeout stream waits invariant FrameParse.start (min fuel turns)
      state (port.seekStart fuel turns state) := by
  induction fuel generalizing turns state with
  | zero =>
      rw [Nat.zero_min]
      refine .late state holds ?_
      cases bytes : stream state with
      | nil => exact Or.inr rfl
      | cons byte later =>
          exact Or.inl (by
            rw [List.length_cons]
            omega)
  | succ fuel ih =>
      have read := readExactly_implements delivers 1 turns state holds
      unfold SerialPort.seekStart
      generalize port.readExactly 1 [] turns state = reading at read ⊢
      cases read with
      | got byte left after holds sooner parsed paid =>
          unfold Parse.exactly at parsed
          cases bytes : stream state with
          | nil =>
              rw [bytes] at parsed
              cases parsed
          | cons first later =>
              rw [bytes, if_neg (by
                rw [List.length_cons]
                omega)] at parsed
              cases parsed
              dsimp only [Reading.bind]
              have shorter : (stream after).length <
                  (stream state).length := by
                rw [bytes, List.length_cons]
                exact Nat.lt_succ_self _
              by_cases isSof : first = Blproto.sof
              · rw [if_pos (show (List.take 1 (first :: stream after)).getD 0 0
                  = Blproto.sof from isSof)]
                refine .got () left after holds sooner ?_ (by omega)
                unfold FrameParse.start
                rw [bytes, List.dropWhile_cons,
                  if_neg (by simpa using isSof)]
              · rw [if_neg (show ¬ (List.take 1 (first ::
                  stream after)).getD 0 0 = Blproto.sof from isSof)]
                refine (ih left after holds).again ?_ sooner shorter paid
                unfold FrameParse.start
                rw [bytes, List.dropWhile_cons, if_pos (by simpa using isSof)]
      | failed error after holds parsed =>
          unfold Parse.exactly at parsed
          split at parsed <;> cases parsed
      | late after holds short =>
          refine .late after holds ?_
          rcases short with few | dry
          · exact Or.inl (by omega)
          · refine Or.inr ?_
            unfold Parse.exactly at dry
            cases bytes : stream state with
            | nil => rfl
            | cons first later =>
                rw [bytes, if_neg (by
                  rw [List.length_cons]
                  omega)] at dry
                cases dry

theorem readFrame_implements :
    Reading.Implements .timeout stream waits invariant port.readFrame
      FrameParse.frame := by
  have start : Reading.Implements .timeout stream waits invariant
      (fun turns state => port.seekStart turns turns state) FrameParse.start := by
    intro turns state holds
    have follows := seekStart_follows delivers turns turns state holds
    rwa [Nat.min_self] at follows
  refine Reading.Implements.bind start fun _start => ?_
  refine Reading.Implements.bind (readExactly_implements delivers 3)
    fun head => ?_
  dsimp only
  by_cases long : (word16At head 1).toNat > Blproto.maxPayload
  · simp only [if_pos long]
    exact Reading.Implements.fail _
  simp only [if_neg long]
  have payload : Reading.Implements .timeout stream waits invariant
      (fun turns state =>
        if (word16At head 1).toNat ≠ 0 then
          port.readExactly (word16At head 1).toNat [] turns state
        else .got [] turns state)
      (Parse.exactly (word16At head 1).toNat) := by
    by_cases empty : (word16At head 1).toNat = 0
    · simp only [empty, ne_eq, not_true_eq_false, if_false]
      exact Reading.Implements.ok []
    · simp only [ne_eq, empty, not_false_eq_true, if_true]
      exact readExactly_implements delivers _
  refine Reading.Implements.bind payload fun data => ?_
  refine Reading.Implements.bind (readExactly_implements delivers 4)
    fun crc => ?_
  cases Blproto.decodeFrame ([Blproto.sof] ++ head ++ data ++ crc) with
  | ok frame => exact Reading.Implements.ok frame
  | error error => exact Reading.Implements.fail _

theorem awaitFrame_follows (cmd : U8) (fuel turns : Nat) (state : σ)
    (holds : invariant state) :
    Reading.Follows .timeout stream waits invariant
      (fun bytes => FrameParse.await cmd bytes.length bytes) (min fuel turns)
      state (port.awaitFrame cmd fuel turns state) := by
  induction fuel generalizing turns state with
  | zero =>
      rw [Nat.zero_min]
      refine .late state holds ?_
      cases bytes : stream state with
      | nil => exact Or.inr rfl
      | cons byte later =>
          exact Or.inl (by
            rw [List.length_cons]
            omega)
  | succ fuel ih =>
      have read := readFrame_implements delivers turns state holds
      have unfolded : FrameParse.await cmd (stream state).length (stream state) =
          (FrameParse.frame.bind fun frame =>
            if frame.1 = cmd then Parse.ok frame.2
            else FrameParse.await cmd (stream state).length) (stream state) := by
        rw [← parse_await_succ]
        exact (parse_await_enough cmd (Nat.le_succ _)).symm
      unfold SerialPort.awaitFrame
      generalize port.readFrame turns state = reading at read ⊢
      cases read with
      | got frame left after holds sooner parsed paid =>
          have shorter := parse_frame_shorter parsed
          unfold Parse.bind at unfolded
          rw [parsed] at unfolded
          dsimp only [Reading.bind] at unfolded ⊢
          by_cases same : frame.1 = cmd
          · rw [if_pos same] at unfolded ⊢
            exact .got frame.2 left after holds sooner unfolded (by omega)
          · rw [if_neg same] at unfolded ⊢
            refine (ih left after holds).again ?_ sooner shorter paid
            rw [unfolded]
            exact parse_await_enough cmd (Nat.le_of_lt shorter)
      | failed error after holds parsed =>
          refine .failed error after holds ?_
          unfold Parse.bind at unfolded
          rw [parsed] at unfolded
          exact unfolded
      | late after holds short =>
          refine .late after holds ?_
          rcases short with few | dry
          · exact Or.inl (by omega)
          · refine Or.inr ?_
            unfold Parse.bind at unfolded
            rw [dry] at unfolded
            exact unfolded

/-- An attempt sees the first response in the stream, or it has had fewer turns
than the bytes and the empty reads may take. -/
theorem awaitFrame_outcome (cmd : U8) (turns : Nat) (state : σ)
    (holds : invariant state) :
    let reading := port.awaitFrame cmd turns turns state
    invariant reading.state ∧
      (reading.outcome =
          awaitResponse cmd
            (readFrames (stream state).length (stream state)) ∨
        (reading.outcome = .error .timeout ∧
          turns < (stream state).length + waits state)) := by
  have follows := awaitFrame_follows delivers cmd turns turns state holds
  rw [Nat.min_self] at follows
  rw [awaitResponse_parse]
  dsimp only
  generalize port.awaitFrame cmd turns turns state = reading at follows ⊢
  cases follows with
  | got value left after holds sooner parsed paid =>
      rw [parsed]
      exact ⟨holds, Or.inl rfl⟩
  | failed error after holds parsed =>
      rw [parsed]
      exact ⟨holds, Or.inl rfl⟩
  | late after holds short =>
      refine ⟨holds, ?_⟩
      rcases short with few | dry
      · exact Or.inr ⟨rfl, few⟩
      · rw [dry]
        exact Or.inl rfl

end Delivery

/-! ### A line on which bytes arrive in pieces -/

/-- The bytes that have arrived, and what arrives before each later read. -/
structure Line where
  pending : List U8
  arrivals : List (List U8)

def Line.bytes (line : Line) : List U8 :=
  line.pending ++ line.arrivals.flatten

/-- A port with a timeout, whose reads return what has arrived by then. -/
def serialLine : SerialPort Line :=
  { write := fun _data line => .returned () line
    read := fun count line =>
      let arrived := line.pending ++ line.arrivals.headD []
      (arrived.take count, ⟨arrived.drop count, line.arrivals.tail⟩)
    resetInputBuffer := fun line => { line with pending := [] }
    hasTimeout := true }

theorem serialLine_delivers :
    serialLine.Delivers Line.bytes (fun line => line.arrivals.length)
      (fun _ => True) where
  bound count line _ := by
    dsimp only [serialLine]
    rw [List.length_take]
    exact Nat.min_le_left _ _
  split count line _ := by
    obtain ⟨pending, arrivals⟩ := line
    dsimp only [serialLine, Line.bytes]
    rw [← List.append_assoc, List.take_append_drop, List.append_assoc]
    cases arrivals <;> rfl
  sooner count line _ := by
    dsimp only [serialLine]
    rw [List.length_tail]
    exact Nat.sub_le _ _
  empty count line _ positive more nothing := by
    obtain ⟨pending, arrivals⟩ := line
    dsimp only [serialLine, Line.bytes] at more nothing ⊢
    refine ⟨rfl, ?_⟩
    cases arrivals with
    | nil =>
        rw [List.headD_nil, List.append_nil, List.take_eq_nil_iff] at nothing
        rw [List.flatten_nil, List.append_nil] at more
        rcases nothing with none_wanted | none_pending
        · omega
        · exact absurd none_pending more
    | cons piece later => exact Nat.lt_succ_self _
  kept _ _ _ := trivial

/-- In whatever pieces the bytes arrive, an attempt of a transaction sees what
it would see if they arrived at once, unless the deadline comes first. -/
theorem awaitFrame_pieces (cmd : U8) (turns : Nat) (line : Line) :
    let reading := serialLine.awaitFrame cmd turns turns line
    reading.outcome =
        awaitResponse cmd (readFrames line.bytes.length line.bytes) ∨
      (reading.outcome = .error .timeout ∧
        turns < line.bytes.length + line.arrivals.length) :=
  (awaitFrame_outcome serialLine_delivers cmd turns line trivial).2

end Stm32Bootloader.Blflash
