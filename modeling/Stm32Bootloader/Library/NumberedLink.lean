/-
Numbers on the requests of a link that loses and delays.

A client that numbers its transactions marks every request with the number,
and the machine marks the answer to it with the same one.  The marks change
nothing else.  As both queues are in order, an answer that arrives is never
older than one that arrived before it.
-/

import Mathlib.Data.List.InsertIdx
import Stm32Bootloader.Library.LossyLink

namespace LossyLink

open TransitionRun

variable {Server Request Response Fault : Type}

/-! ### A machine that keeps the numbers -/

/-- A request that was handled, with its number and its answer. -/
structure Exchange (Request Response : Type) where
  number : Nat
  request : Request
  response : Option Response

structure Ledger (Server Request Response : Type) where
  server : Server
  exchanges : List (Exchange Request Response)

def Machine.numbered (machine : Machine Server Request Response Fault) :
    Machine (Ledger Server Request Response) (Nat × Request)
      (Nat × Response) Fault where
  handle ledger request fault :=
    let (server, response) := machine.handle ledger.server request.2 fault
    (⟨server, ledger.exchanges ++ [⟨request.1, request.2, response⟩]⟩,
      response.map fun response => (request.1, response))
  restart ledger := { ledger with server := machine.restart ledger.server }

abbrev NumberedLink (Server Request Response : Type) :=
  Link (Ledger Server Request Response) (Nat × Request) (Nat × Response)

/-! ### Without the numbers -/

def NumberedLink.forget (link : NumberedLink Server Request Response) :
    Link Server Request Response :=
  ⟨link.server.server, link.requests.map Prod.snd,
    link.responses.map Prod.snd, link.arrived.map Prod.snd⟩

section Forget

variable (machine : Machine Server Request Response Fault)
  (link : NumberedLink Server Request Response)

theorem forget_step (event : Event Fault) :
    NumberedLink.forget (link.step machine.numbered event) =
      (NumberedLink.forget link).step machine event := by
  obtain ⟨ledger, requests, responses, arrived⟩ := link
  cases event with
  | handle fault =>
      cases requests with
      | nil => rfl
      | cons request later =>
          simp only [Link.step, Link.handle, NumberedLink.forget,
            Machine.numbered, List.map_cons, List.map_append]
          cases (machine.handle ledger.server request.2 fault).2 <;> rfl
  | deliver =>
      cases responses with
      | nil => rfl
      | cons response later =>
          simp only [Link.step, Link.deliver, NumberedLink.forget,
            List.map_cons, List.map_append, List.map_nil]
  | loseRequest index =>
      simp only [Link.step, NumberedLink.forget, List.eraseIdx_map]
  | loseResponse index =>
      simp only [Link.step, NumberedLink.forget, List.eraseIdx_map]
  | restart => rfl

theorem forget_run (events : List (Event Fault)) :
    NumberedLink.forget (run (Link.step machine.numbered) link events) =
      run (Link.step machine) (NumberedLink.forget link) events := by
  induction events generalizing link with
  | nil => rfl
  | cons event later ih =>
      rw [run_cons, run_cons, ih, forget_step]

/-- The client cannot tell that its requests are numbered. -/
theorem forget_attempt (number : Nat) (request : Request)
    (before during : List (Event Fault)) :
    NumberedLink.forget
        (link.attempt machine.numbered (number, request) before during) =
      (NumberedLink.forget link).attempt machine request before during := by
  have sent : ∀ link : NumberedLink Server Request Response,
      NumberedLink.forget (link.send (number, request)) =
        (NumberedLink.forget link).send request := by
    intro link
    simp only [Link.send, NumberedLink.forget, List.map_append,
      List.map_cons, List.map_nil]
  rw [Link.attempt, forget_run, sent, forget_run]
  rfl

end Forget

/-! ### Order -/

/-- The numbers in flight, from what is read first to what was sent last. -/
def NumberedLink.numbers (link : NumberedLink Server Request Response) :
    List Nat :=
  link.arrived.map Prod.fst ++
    (link.responses.map Prod.fst ++ link.requests.map Prod.fst)

/-- The numbers in flight increase up to this one. -/
structure NumberedLink.InOrder (latest : Nat)
    (link : NumberedLink Server Request Response) : Prop where
  sorted : (NumberedLink.numbers link).Pairwise (· ≤ ·)
  bounded : ∀ number, number ∈ NumberedLink.numbers link → number ≤ latest

section Order

variable {machine : Machine Server Request Response Fault} {latest : Nat}
  {link next : NumberedLink Server Request Response}

theorem numbers_step (event : Event Fault) :
    (NumberedLink.numbers (link.step machine.numbered event)).Sublist
      (NumberedLink.numbers link) := by
  obtain ⟨ledger, requests, responses, arrived⟩ := link
  cases event with
  | handle fault =>
      cases requests with
      | nil => exact List.Sublist.refl _
      | cons request later =>
          simp only [Link.step, Link.handle, NumberedLink.numbers,
            Machine.numbered, List.map_cons, List.map_append]
          refine List.Sublist.append_left ?_ _
          cases (machine.handle ledger.server request.2 fault).2 with
          | none =>
              rw [Option.map_none, Option.toList_none, List.map_nil,
                List.append_nil]
              exact List.Sublist.append_left (List.sublist_cons_self _ _) _
          | some response =>
              rw [Option.map_some, Option.toList_some, List.append_assoc]
              exact List.Sublist.refl _
  | deliver =>
      cases responses with
      | nil => exact List.Sublist.refl _
      | cons response later =>
          simp only [Link.step, Link.deliver, NumberedLink.numbers,
            List.map_cons, List.map_append, List.map_nil, List.append_assoc]
          exact List.Sublist.refl _
  | loseRequest index =>
      exact ((((List.eraseIdx_sublist requests index).map _).append_left
        _).append_left _)
  | loseResponse index =>
      exact ((((List.eraseIdx_sublist responses index).map _).append_right
        _).append_left _)
  | restart => exact List.Sublist.refl _

theorem NumberedLink.InOrder.sublist
    (inOrder : NumberedLink.InOrder latest link)
    (fewer : (NumberedLink.numbers next).Sublist
      (NumberedLink.numbers link)) : NumberedLink.InOrder latest next :=
  ⟨inOrder.sorted.sublist fewer,
    fun number member => inOrder.bounded number (fewer.subset member)⟩

theorem NumberedLink.InOrder.run
    (inOrder : NumberedLink.InOrder latest link)
    (events : List (Event Fault)) :
    NumberedLink.InOrder latest
      (TransitionRun.run (Link.step machine.numbered) link events) :=
  run_invariant (NumberedLink.InOrder latest) inOrder
    (fun _ event reached => reached.sublist (numbers_step event)) events

theorem NumberedLink.InOrder.send
    (inOrder : NumberedLink.InOrder latest link) (request : Request) :
    NumberedLink.InOrder latest (link.send (latest, request)) := by
  have fewer : (NumberedLink.numbers
      (link.send (latest, request))).Sublist
        (NumberedLink.numbers link ++ [latest]) := by
    simp only [Link.send, NumberedLink.numbers, List.map_append,
      List.map_cons, List.map_nil, List.nil_append, ← List.append_assoc]
    exact List.Sublist.append_right
      ((List.sublist_append_right _ _).append_right _) _
  constructor
  · refine List.Pairwise.sublist fewer (List.pairwise_append.mpr
      ⟨inOrder.sorted, List.pairwise_singleton _ _, ?_⟩)
    intro earlier member later last
    rw [List.mem_singleton.mp last]
    exact inOrder.bounded earlier member
  · intro number member
    rcases List.mem_append.mp (fewer.subset member) with old | last
    · exact inOrder.bounded number old
    · exact Nat.le_of_eq (List.mem_singleton.mp last)

theorem NumberedLink.InOrder.attempt
    (inOrder : NumberedLink.InOrder latest link) (request : Request)
    (before during : List (Event Fault)) :
    NumberedLink.InOrder latest
      (link.attempt machine.numbered (latest, request) before during) :=
  ((inOrder.run before).send request).run during

end Order

/-! ### The transaction that is under way -/

/-- A number that is older, or the latest one with its request. -/
def Issued (latest : Nat) (request : Request) (number : Nat)
    (asked : Request) : Prop :=
  number < latest ∨ (number = latest ∧ asked = request)

/-- The machine gives this answer to the request. -/
def Exchange.Genuine (machine : Machine Server Request Response Fault)
    (exchange : Exchange Request Response) : Prop :=
  ∃ server fault,
    (machine.handle server exchange.request fault).2 = exchange.response

/-- What the ledger holds while the latest transaction sends this request. -/
def Ledger.Keeps (machine : Machine Server Request Response Fault)
    (latest : Nat) (request : Request)
    (ledger : Ledger Server Request Response) : Prop :=
  ∀ exchange, exchange ∈ ledger.exchanges →
    Issued latest request exchange.number exchange.request ∧
      exchange.Genuine machine

/-- The request with this number was answered so. -/
def Ledger.Gave (ledger : Ledger Server Request Response)
    (answer : Nat × Response) : Prop :=
  ∃ exchange, exchange ∈ ledger.exchanges ∧ exchange.number = answer.1 ∧
    exchange.response = some answer.2

/-- The latest transaction sends nothing but this request.  What is on its way
to the client was answered under its number. -/
structure NumberedLink.Underway
    (machine : Machine Server Request Response Fault) (latest : Nat)
    (request : Request) (link : NumberedLink Server Request Response) :
    Prop where
  inOrder : NumberedLink.InOrder latest link
  trusted : Trusted (Ledger.Keeps machine latest request)
    (fun _ asked => Issued latest request asked.1 asked.2) Ledger.Gave link

section Underway

variable {machine : Machine Server Request Response Fault} {latest : Nat}
  {request : Request} {link : NumberedLink Server Request Response}

theorem underway_initial (machine : Machine Server Request Response Fault)
    (server : Server) (latest : Nat) (request : Request) :
    NumberedLink.Underway machine latest request
      (Link.initial ⟨server, []⟩) where
  inOrder := ⟨List.Pairwise.nil, List.forall_mem_nil _⟩
  trusted := trusted_initial (List.forall_mem_nil _)

theorem exchange_stays {ledger next : Ledger Server Request Response}
    (becomes : machine.numbered.Next ledger next)
    {exchange : Exchange Request Response}
    (known : exchange ∈ ledger.exchanges) : exchange ∈ next.exchanges := by
  cases becomes with
  | handle asked fault => exact List.mem_append_left _ known
  | restart => exact known

theorem numbered_discipline (machine : Machine Server Request Response Fault)
    (latest : Nat) (request : Request) :
    Discipline machine.numbered (Ledger.Keeps machine latest request)
      (fun _ asked => Issued latest request asked.1 asked.2)
      Ledger.Gave := by
  constructor
  · intro ledger asked fault kept issued exchange member
    rcases List.mem_append.mp member with old | new
    · exact kept exchange old
    · rw [List.mem_singleton.mp new]
      exact ⟨issued, ledger.server, fault, rfl⟩
  · intro ledger asked fault answer _kept _issued answered
    refine ⟨_, List.mem_append_right _ List.mem_cons_self, ?_⟩
    obtain ⟨response, replied, rfl⟩ := Option.map_eq_some_iff.mp answered
    exact ⟨rfl, replied⟩
  · intro ledger kept
    exact kept
  · intro ledger next asked _becomes issued
    exact issued
  · rintro ledger next answer becomes ⟨exchange, known, told⟩
    exact ⟨exchange, exchange_stays becomes known, told⟩

variable (underway : NumberedLink.Underway machine latest request link)

include underway

theorem NumberedLink.Underway.attempt (before during : List (Event Fault)) :
    NumberedLink.Underway machine latest request
      (link.attempt machine.numbered (latest, request) before during) where
  inOrder := underway.inOrder.attempt request before during
  trusted := underway.trusted.attempt
    (numbered_discipline machine latest request)
    (fun _ _ => Or.inr ⟨rfl, rfl⟩) before during

theorem NumberedLink.Underway.next (following : Request) :
    NumberedLink.Underway machine (latest + 1) following link := by
  have older : ∀ number asked, Issued latest request number asked →
      Issued (latest + 1) following number asked := by
    rintro number asked (older | ⟨rfl, _same⟩)
    · exact Or.inl (Nat.lt_succ_of_lt older)
    · exact Or.inl (Nat.lt_succ_self _)
  exact
    { inOrder := ⟨underway.inOrder.sorted, fun number member =>
        Nat.le_succ_of_le (underway.inOrder.bounded number member)⟩
      trusted :=
        { server := fun exchange member =>
            ⟨older _ _ (underway.trusted.server exchange member).1,
              (underway.trusted.server exchange member).2⟩
          requests := fun asked member =>
            older _ _ (underway.trusted.requests asked member)
          responses := underway.trusted.responses
          arrived := underway.trusted.arrived } }

theorem NumberedLink.Underway.given {answer : Nat × Response}
    (arrived : answer ∈ link.arrived) :
    ∃ server asked fault,
      (machine.handle server asked fault).2 = some answer.2 := by
  obtain ⟨exchange, known, _number, replied⟩ :=
    underway.trusted.arrived _ arrived
  obtain ⟨_issued, server, fault, handled⟩ :=
    underway.trusted.server _ known
  exact ⟨server, exchange.request, fault, handled.trans replied⟩

theorem NumberedLink.Underway.answers {response : Response}
    (arrived : (latest, response) ∈ link.arrived) :
    ⟨latest, request, some response⟩ ∈ link.server.exchanges := by
  obtain ⟨⟨number, asked, answered⟩, known, rfl, replied⟩ :=
    underway.trusted.arrived _ arrived
  rcases (underway.trusted.server _ known).1 with older | ⟨_same, rfl⟩
  · exact absurd older (Nat.lt_irrefl _)
  · rw [← replied]
    exact known

/-- The first answer of a kind is the oldest: if it is not old, none is. -/
theorem NumberedLink.Underway.first {kind : Nat × Response → Bool}
    {answer : Nat × Response}
    (found : link.arrived.find? kind = some answer) :
    answer.1 = latest ↔ ∀ other, other ∈ link.arrived →
      kind other = true → ¬ other.1 < latest := by
  have sorted : (link.arrived.map Prod.fst).Pairwise (· ≤ ·) :=
    underway.inOrder.sorted.sublist (List.sublist_append_left _ _)
  have bounded : ∀ other, other ∈ link.arrived → other.1 ≤ latest :=
    fun other member => underway.inOrder.bounded _
      (List.mem_append_left _ (List.mem_map_of_mem member))
  obtain ⟨ofKind, earlier, later, split, otherKind⟩ :=
    List.find?_eq_some_iff_append.mp found
  constructor
  · intro same other member isKind
    rw [split] at member sorted
    rcases List.mem_append.mp member with before | after
    · have differs := otherKind other before
      rw [isKind] at differs
      cases differs
    · rw [List.map_append, List.map_cons, List.pairwise_append] at sorted
      rcases List.mem_cons.mp after with rfl | behind
      · omega
      · have least := (List.pairwise_cons.mp sorted.2.1).1 other.1
          (List.mem_map_of_mem behind)
        omega
  · intro punctual
    have member := List.mem_of_find?_eq_some found
    exact Nat.le_antisymm (bounded answer member)
      (Nat.le_of_not_lt (punctual answer member ofKind))

end Underway

end LossyLink
