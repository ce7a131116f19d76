/-
A client and a server over a link that loses.

Requests and responses travel in order, one queue for each direction, and any
of them may be lost on the way.  The client reads what has arrived since it
sent its last request; what arrives before that is discarded, and what arrives
later is read in the place of an answer to a later request.  The server may be
restarted at any time.  Nothing is forged: a request in flight was sent, and a
response in flight was given.
-/

import Stm32Bootloader.Library.TransitionRun

namespace LossyLink

open TransitionRun

variable {Server Request Response Fault : Type}

/-- A server answers a request or stays silent. -/
structure Machine (Server Request Response Fault : Type) where
  handle : Server → Request → Fault → Server × Option Response
  restart : Server → Server

inductive Event (Fault : Type) where
  | handle (fault : Fault)
  | deliver
  | loseRequest (index : Nat)
  | loseResponse (index : Nat)
  | restart

structure Link (Server Request Response : Type) where
  server : Server
  requests : List Request
  responses : List Response
  arrived : List Response

def Link.initial (server : Server) : Link Server Request Response :=
  ⟨server, [], [], []⟩

def Link.handle (machine : Machine Server Request Response Fault)
    (link : Link Server Request Response) (fault : Fault) :
    Link Server Request Response :=
  match link.requests with
  | [] => link
  | request :: later =>
      let (server, response) := machine.handle link.server request fault
      { link with
        server := server
        requests := later
        responses := link.responses ++ response.toList }

def Link.deliver (link : Link Server Request Response) :
    Link Server Request Response :=
  match link.responses with
  | [] => link
  | response :: later =>
      { link with
        responses := later
        arrived := link.arrived ++ [response] }

def Link.step (machine : Machine Server Request Response Fault)
    (link : Link Server Request Response) :
    Event Fault → Link Server Request Response
  | .handle fault => link.handle machine fault
  | .deliver => link.deliver
  | .loseRequest index =>
      { link with requests := link.requests.eraseIdx index }
  | .loseResponse index =>
      { link with responses := link.responses.eraseIdx index }
  | .restart => { link with server := machine.restart link.server }

/-- The client discards what has arrived and sends a request. -/
def Link.send (link : Link Server Request Response) (request : Request) :
    Link Server Request Response :=
  { link with requests := link.requests ++ [request], arrived := [] }

/-- What happens up to a request and from there to the end of the wait. -/
def Link.attempt (machine : Machine Server Request Response Fault)
    (link : Link Server Request Response) (request : Request)
    (before during : List (Event Fault)) : Link Server Request Response :=
  run (Link.step machine)
    ((run (Link.step machine) link before).send request) during

/-! ### An attempt on an idle link -/

section Idle

variable (machine : Machine Server Request Response Fault) (server : Server)
  (arrived : List Response) (request : Request) (fault : Fault)

theorem attempt_answered :
    (Link.mk server [] [] arrived).attempt machine request []
        [.handle fault, .deliver] =
      ⟨(machine.handle server request fault).1, [], [],
        (machine.handle server request fault).2.toList⟩ := by
  simp only [Link.attempt, run_nil, run_cons, Link.send, Link.step,
    Link.handle, List.nil_append]
  cases (machine.handle server request fault).2 <;> rfl

theorem attempt_answerLost :
    (Link.mk server [] [] arrived).attempt machine request []
        [.handle fault, .loseResponse 0] =
      ⟨(machine.handle server request fault).1, [], [], []⟩ := by
  simp only [Link.attempt, run_nil, run_cons, Link.send, Link.step,
    Link.handle, List.nil_append]
  cases (machine.handle server request fault).2 <;> rfl

theorem attempt_requestLost :
    (Link.mk server [] [] arrived).attempt machine request []
        [.loseRequest 0] =
      ⟨server, [], [], []⟩ := rfl

end Idle

/-! ### An attempt while answers are on their way -/

section Late

variable (machine : Machine Server Request Response Fault) (server : Server)
  (responses arrived : List Response) (request : Request) (fault : Fault)

theorem attempt_oldest {first : Response} {later : List Response}
    (oldest : responses ++ (machine.handle server request fault).2.toList =
      first :: later) :
    (Link.mk server [] responses arrived).attempt machine request []
        [.handle fault, .deliver] =
      ⟨(machine.handle server request fault).1, [], later, [first]⟩ := by
  simp only [Link.attempt, run_nil, run_cons, Link.send, Link.step,
    Link.handle, Link.deliver, List.nil_append, oldest]

theorem attempt_held :
    (Link.mk server [] responses arrived).attempt machine request []
        [.handle fault] =
      ⟨(machine.handle server request fault).1, [],
        responses ++ (machine.handle server request fault).2.toList, []⟩ :=
  rfl

end Late

/-! ### Invariants -/

/-- What a server can become at once. -/
inductive Machine.Next (machine : Machine Server Request Response Fault) :
    Server → Server → Prop where
  | handle (server : Server) (request : Request) (fault : Fault) :
      Next machine server (machine.handle server request fault).1
  | restart (server : Server) : Next machine server (machine.restart server)

/-- A server that is sent only what it may be sent keeps its invariant, and
what has been sent or told stays so. -/
structure Discipline (machine : Machine Server Request Response Fault)
    (holds : Server → Prop) (sent : Server → Request → Prop)
    (told : Server → Response → Prop) : Prop where
  handle : ∀ server request fault, holds server → sent server request →
    holds (machine.handle server request fault).1
  answer : ∀ server request fault response, holds server →
    sent server request →
    (machine.handle server request fault).2 = some response →
      told (machine.handle server request fault).1 response
  restart : ∀ server, holds server → holds (machine.restart server)
  sentStays : ∀ server next request, machine.Next server next →
    sent server request → sent next request
  toldStays : ∀ server next response, machine.Next server next →
    told server response → told next response

/-- Everything in flight was sent or told. -/
structure Trusted (holds : Server → Prop) (sent : Server → Request → Prop)
    (told : Server → Response → Prop)
    (link : Link Server Request Response) : Prop where
  server : holds link.server
  requests : ∀ request, request ∈ link.requests →
    sent link.server request
  responses : ∀ response, response ∈ link.responses →
    told link.server response
  arrived : ∀ response, response ∈ link.arrived → told link.server response

section Invariants

variable {machine : Machine Server Request Response Fault}
  {holds extra : Server → Prop} {sent : Server → Request → Prop}
  {told : Server → Response → Prop} {link : Link Server Request Response}

theorem trusted_initial {server : Server} (start : holds server) :
    Trusted holds sent told (.initial server) := by
  constructor
  · exact start
  · intro request impossible
    cases impossible
  · intro response impossible
    cases impossible
  · intro response impossible
    cases impossible

/-- A property that the server never loses may join its invariant. -/
theorem Discipline.and (discipline : Discipline machine holds sent told)
    (stays : ∀ server next, machine.Next server next → extra server →
      extra next) :
    Discipline machine (fun server => holds server ∧ extra server) sent
      told := by
  constructor
  · intro server request fault both allowed
    exact ⟨discipline.handle server request fault both.1 allowed,
      stays _ _ (.handle server request fault) both.2⟩
  · intro server request fault response both
    exact discipline.answer server request fault response both.1
  · intro server both
    exact ⟨discipline.restart server both.1,
      stays _ _ (.restart server) both.2⟩
  · exact discipline.sentStays
  · exact discipline.toldStays

theorem Trusted.and (trusted : Trusted holds sent told link)
    (also : extra link.server) :
    Trusted (fun server => holds server ∧ extra server) sent told link :=
  { server := ⟨trusted.server, also⟩
    requests := trusted.requests
    responses := trusted.responses
    arrived := trusted.arrived }

section Steps

variable (discipline : Discipline machine holds sent told)
  (trusted : Trusted holds sent told link)

include discipline trusted

theorem Trusted.handle (fault : Fault) :
    Trusted holds sent told (link.handle machine fault) := by
  unfold Link.handle
  cases queue : link.requests with
  | nil => exact trusted
  | cons request later =>
      have oldest : sent link.server request := by
        apply trusted.requests
        rw [queue]
        exact List.mem_cons_self
      have next : machine.Next link.server
          (machine.handle link.server request fault).1 :=
        .handle link.server request fault
      constructor
      · exact discipline.handle _ _ fault trusted.server oldest
      · intro waiting member
        apply discipline.sentStays _ _ _ next
        apply trusted.requests
        rw [queue]
        exact List.mem_cons_of_mem _ member
      · intro response member
        rcases List.mem_append.mp member with old | new
        · exact discipline.toldStays _ _ _ next (trusted.responses _ old)
        · exact discipline.answer _ _ fault response trusted.server oldest
            (Option.mem_toList.mp new)
      · intro response member
        exact discipline.toldStays _ _ _ next (trusted.arrived _ member)

omit discipline in
theorem Trusted.deliver : Trusted holds sent told link.deliver := by
  unfold Link.deliver
  cases queue : link.responses with
  | nil => exact trusted
  | cons first later =>
      have member : ∀ response, response ∈ first :: later →
          told link.server response := by
        rw [← queue]
        exact trusted.responses
      constructor
      · exact trusted.server
      · exact trusted.requests
      · intro response waiting
        exact member response (List.mem_cons_of_mem _ waiting)
      · intro response arrived
        rcases List.mem_append.mp arrived with old | new
        · exact trusted.arrived _ old
        · rw [List.mem_singleton.mp new]
          exact member first List.mem_cons_self

theorem Trusted.step (event : Event Fault) :
    Trusted holds sent told (link.step machine event) := by
  cases event with
  | handle fault => exact trusted.handle discipline fault
  | deliver => exact trusted.deliver
  | loseRequest index =>
      exact { trusted with
        requests := fun request member =>
          trusted.requests request (List.mem_of_mem_eraseIdx member) }
  | loseResponse index =>
      exact { trusted with
        responses := fun response member =>
          trusted.responses response (List.mem_of_mem_eraseIdx member) }
  | restart =>
      have next : machine.Next link.server (machine.restart link.server) :=
        .restart link.server
      constructor
      · exact discipline.restart _ trusted.server
      · intro request member
        exact discipline.sentStays _ _ _ next (trusted.requests _ member)
      · intro response member
        exact discipline.toldStays _ _ _ next (trusted.responses _ member)
      · intro response member
        exact discipline.toldStays _ _ _ next (trusted.arrived _ member)

theorem Trusted.run (events : List (Event Fault)) :
    Trusted holds sent told
      (TransitionRun.run (Link.step machine) link events) :=
  run_invariant (Trusted holds sent told) trusted
    (fun _ event reached => reached.step discipline event) events

omit discipline in
theorem Trusted.send {request : Request} (may : sent link.server request) :
    Trusted holds sent told (link.send request) := by
  constructor
  · exact trusted.server
  · intro waiting member
    rcases List.mem_append.mp member with old | new
    · exact trusted.requests _ old
    · rw [List.mem_singleton.mp new]
      exact may
  · exact trusted.responses
  · intro response impossible
    cases impossible

/-- Whatever is lost, delayed or repeated, an attempt reads only what the
server has told. -/
theorem Trusted.attempt {request : Request}
    (may : ∀ server, holds server → sent server request)
    (before during : List (Event Fault)) :
    Trusted holds sent told
      (link.attempt machine request before during) := by
  have early := trusted.run discipline before
  exact (early.send (may _ early.server)).run discipline during

end Steps

end Invariants

end LossyLink
