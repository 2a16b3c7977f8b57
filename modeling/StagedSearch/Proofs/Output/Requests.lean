/-
# What is asked of a sink

Whatever is written comes down to requests that are made one after another, each of them a text
or a flush, up to the first one that the sink refuses. Which requests these are does not depend on
the sink. So the bytes that a failing sink has taken are a beginning of those that one takes which
never fails, wherever the failure comes.
-/

import StagedSearch.Proofs.Output.Writing

namespace StagedSearch

inductive SinkRequest where
  | write (text : String)
  | flush
deriving DecidableEq, Inhabited

namespace SinkRequest

def perform : SinkRequest → Writing Unit
  | write text => Sink.write text
  | flush => Sink.flush

/-- What a request writes if it is granted. -/
def text : SinkRequest → String
  | write text => text
  | flush => ""

/-- Makes some requests in order, up to the first one that is refused. -/
def performAll : List SinkRequest → Writing Unit
  | [] => pure ()
  | request :: rest => do
    request.perform
    performAll rest

/-- What some requests write if all of them are granted. -/
def textOf (requests : List SinkRequest) : String := String.join (requests.map text)

theorem textOf_append (first later : List SinkRequest) :
    textOf (first ++ later) = textOf first ++ textOf later := by
  unfold textOf
  rw [List.map_append, String.join_append]

theorem performAll_append (first later : List SinkRequest) :
    performAll (first ++ later) = performAll first >>= fun _ => performAll later := by
  induction first with
  | nil => rfl
  | cons request rest ih => simp only [List.cons_append, performAll, ih, bind_assoc]

theorem performAll_singleton (request : SinkRequest) : performAll [request] = request.perform := by
  simp only [performAll, bind_pure_unit]

theorem emits_perform (request : SinkRequest) : Writing.Emits request.perform request.text := by
  cases request with
  | write text => exact Sink.emits_write text
  | flush => exact Sink.emits_flush

theorem suitsEndless_perform (request : SinkRequest) : request.perform.SuitsEndless := by
  cases request with
  | write text => exact Sink.suitsEndless_write text
  | flush => exact Sink.suitsEndless_flush

theorem emits_performAll (requests : List SinkRequest) :
    Writing.Emits (performAll requests) (textOf requests) := by
  induction requests with
  | nil => exact Writing.emits_pure
  | cons request rest ih =>
    have join : textOf (request :: rest) = request.text ++ textOf rest := String.join_cons
    rw [join]
    exact (emits_perform request).andThen ih

theorem suitsEndless_performAll (requests : List SinkRequest) :
    (performAll requests).SuitsEndless := by
  induction requests with
  | nil => exact Writing.suitsEndless_pure
  | cons request rest ih => exact (suitsEndless_perform request).andThen ih

/-- A request that is refused has left a beginning of its text. -/
theorem taken_of_perform_eq_error {request : SinkRequest} {sink after : Sink}
    {fault : OutputFault} (refused : request.perform sink = .error fault after) :
    ∃ part, part <+: request.text.toUTF8.data.toList ∧
      after.taken.data.toList = sink.taken.data.toList ++ part := by
  cases request with
  | write text =>
    simp only [perform, Sink.write] at refused
    split at refused
    · cases refused
      refine ⟨_, List.take_prefix (sink.room.fit text.toUTF8).1 _, ?_⟩
      simp [SinkRequest.text, ByteArray.data_append, ByteArray.data_extract]
    · cases refused
  | flush =>
    simp only [perform, Sink.flush] at refused
    split at refused <;> cases refused
    exact ⟨[], List.nil_prefix, (List.append_nil _).symm⟩

end SinkRequest

/-! ## Requests that are granted and refused -/

namespace Sink

variable {requests first later : List SinkRequest} {sink after : Sink} {fault : OutputFault}

/-- The same sink with room for everything that is still to come. -/
def unfailing (sink : Sink) : Sink := { sink with room := .unlimited, flushes := none }

theorem endless_unfailing (sink : Sink) : sink.unfailing.Endless := ⟨rfl, rfl⟩

/-- A sink grants all of some requests, and this is what becomes of it. -/
def Grants (sink : Sink) (requests : List SinkRequest) (after : Sink) : Prop :=
  SinkRequest.performAll requests sink = .ok () after

/-- A sink refuses one of some requests, and this is what has become of it with that one. -/
def Refuses (sink : Sink) (requests : List SinkRequest) (fault : OutputFault) (after : Sink) :
    Prop :=
  SinkRequest.performAll requests sink = .error fault after

theorem grants_or_refuses (sink : Sink) (requests : List SinkRequest) :
    (∃ after, sink.Grants requests after) ∨ ∃ fault after, sink.Refuses requests fault after := by
  unfold Grants Refuses
  cases SinkRequest.performAll requests sink with
  | ok u after => exact .inl ⟨after, rfl⟩
  | error fault after => exact .inr ⟨fault, after, rfl⟩

theorem Refuses.unique (refused : sink.Refuses requests fault after) {other : Sink}
    {fault' : OutputFault} (refused' : sink.Refuses requests fault' other) :
    fault' = fault ∧ other = after := by
  cases refused'.symm.trans refused
  exact ⟨rfl, rfl⟩

theorem Endless.exists_grants (endless : sink.Endless) (requests : List SinkRequest) :
    ∃ after, sink.Grants requests after ∧ after.Endless :=
  SinkRequest.suitsEndless_performAll requests sink endless

theorem not_refuses_nil : ¬ sink.Refuses [] fault after := nofun

theorem grants_append : sink.Grants (first ++ later) after ↔
    ∃ between, sink.Grants first between ∧ between.Grants later after := by
  unfold Grants
  rw [SinkRequest.performAll_append, bind_apply]
  cases SinkRequest.performAll first sink <;> simp

theorem refuses_append : sink.Refuses (first ++ later) fault after ↔
    sink.Refuses first fault after ∨
      ∃ between, sink.Grants first between ∧ between.Refuses later fault after := by
  unfold Grants Refuses
  rw [SinkRequest.performAll_append, bind_apply]
  cases SinkRequest.performAll first sink <;> simp

/-- Requests that are granted leave their text. -/
theorem Grants.taken (granted : sink.Grants requests after) :
    after.taken.data.toList =
      sink.taken.data.toList ++ (SinkRequest.textOf requests).toUTF8.data.toList := by
  rw [SinkRequest.emits_performAll requests sink after granted]
  simp

/-- Requests of which one is refused leave a beginning of their text. -/
theorem Refuses.taken (refused : sink.Refuses requests fault after) :
    ∃ part, part <+: (SinkRequest.textOf requests).toUTF8.data.toList ∧
      after.taken.data.toList = sink.taken.data.toList ++ part := by
  induction requests generalizing sink with
  | nil => exact absurd refused not_refuses_nil
  | cons request rest ih =>
    have join : (SinkRequest.textOf (request :: rest)).toUTF8.data.toList =
        request.text.toUTF8.data.toList ++ (SinkRequest.textOf rest).toUTF8.data.toList := by
      rw [show SinkRequest.textOf (request :: rest) = request.text ++ SinkRequest.textOf rest from
        String.join_cons]
      simp
    rw [join]
    have parts : sink.Refuses ([request] ++ rest) fault after := refused
    rcases refuses_append.1 parts with refused | ⟨between, granted, refused⟩
    · rw [Refuses, SinkRequest.performAll_singleton] at refused
      obtain ⟨part, begins, taken⟩ := SinkRequest.taken_of_perform_eq_error refused
      exact ⟨part, begins.trans (List.prefix_append _ _), taken⟩
    · obtain ⟨part, begins, taken⟩ := ih refused
      rw [Grants, SinkRequest.performAll_singleton] at granted
      rw [SinkRequest.emits_perform request sink between granted] at taken
      refine ⟨_, (List.prefix_append_right_inj _).2 begins, ?_⟩
      rw [taken]
      simp

end Sink

/-! ## What the protocol asks for -/

namespace Protocol

/-- Lines are asked for one by one. -/
theorem writeLines_eq (lines : List String) :
    writeLines lines = SinkRequest.performAll (lines.map fun text => .write (text ++ "\n")) := by
  induction lines with
  | nil => rfl
  | cons text rest ih =>
    simp only [writeLines, List.map_cons, SinkRequest.performAll, ih]
    rfl

def solutionRequests (names : Names) (s : Store) : List SinkRequest :=
  [.write (assignment names s), .flush]

theorem writeSolution_eq (names : Names) (s : Store) :
    writeSolution names s = SinkRequest.performAll (solutionRequests names s) := by
  simp only [writeSolution, solutionRequests, SinkRequest.performAll, SinkRequest.perform,
    bind_pure_unit]

/-- What is written for some solutions, one after another. -/
theorem textOf_solutionRequests (names : Names) (stores : List Store) :
    SinkRequest.textOf (stores.flatMap (solutionRequests names)) =
      String.join (stores.map (assignment names)) := by
  induction stores with
  | nil => rfl
  | cons s rest ih =>
    rw [List.flatMap_cons, SinkRequest.textOf_append, ih, List.map_cons, String.join_cons]
    congr 1
    simp [solutionRequests, SinkRequest.textOf, SinkRequest.text, String.join_cons]

end Protocol

end StagedSearch
