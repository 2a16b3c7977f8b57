/-
# Solving

A solve builds the tree of a search, runs it, and writes the result protocol. Everything
that outlasts a solve is its session: the store, the sink, the clock, the channel of
solutions and the journal. A failing solve leaves them as they are at the failure.

A solve without a seed takes its randomness from outside. What the system hands out is part
of the session, settled before the solve as the readings of the clock are, so two solves of
one session share it.
-/

import StagedSearch.Options.Basic
import StagedSearch.Output.Protocol
import StagedSearch.Search.Engine

namespace StagedSearch

structure Session where
  store : Store
  sink : Sink
  clock : Clock
  /-- the generator of a solve without a seed. The system hands out another one for every
  solve, so whoever solves again puts it here first. -/
  entropy : Generator
  channel : Option Channel
  journal : Journal
deriving Inhabited

/-- The session with a stream of its own for the accepted solutions, which holds all of them
at the end. -/
def Session.streaming (session : Session) : Session :=
  { session with channel := some Channel.opened }

/-- The session after a search, with what the search did to the store and the context. -/
def Session.after (session : Session) (s : Store) (context : Context ProtocolReporter) :
    Session :=
  { store := s
    sink :=
      match context.listener.reporter with
      | some reporter => reporter.sink
      | none => session.sink
    clock := context.clock
    entropy := session.entropy
    channel := context.listener.channel
    journal := context.journal }

abbrev Solving := EStateM SolveError Session

/-- What a solve is asked to do, apart from the search itself. -/
structure SolveRequest where
  names : Names
  options : SolveOptions
  /-- keep every solution -/
  retain : Bool
deriving DecidableEq, Inhabited

/-- How a search that is not trivial ended. -/
def SearchStatus.ofResult (result : SearchResult) (searchAll limitReached complete : Bool) :
    SearchStatus :=
  if result.timedOut then .timedOut
  else if result.found then
    if !searchAll then .satisfied
    else if limitReached then .limitReached
    else if complete then .exhausted
    else .incomplete
  else if complete then .unsatisfiable
  else .unknown

/-- A search that has ended, before anything is written about it. -/
structure Searched where
  status : SearchStatus
  statistics : SearchStatistics
  listener : Listener ProtocolReporter

namespace Solving

def note (event : SearchEvent) : Solving Unit :=
  modify fun session => { session with journal := session.journal.note event }

def write (writing : Writing Unit) : Solving Unit := fun session =>
  match writing session.sink with
  | .ok _ sink => .ok () { session with sink }
  | .error fault sink => .error (.output fault) { session with sink }

def readClock : Solving Nat := fun session =>
  let (time, clock) := session.clock.read
  .ok time { session with clock }

/-- Whether a search goes on after its first solution. -/
def searchesAll (options : SolveOptions) (spec : SearchSpec) : Bool :=
  options.allSolutions || spec.goal.isOptimization

/-- Writes about the model and the variables that no hint claims. -/
def announce (names : Names) (spec : SearchSpec) : Solving Unit := do
  let s := (← get).store
  write (Sink.write (Protocol.header s (Protocol.goalLine spec s)))
  match spec.completion names s with
  | .error e => throw e
  | .ok sets => write (Sink.write (Protocol.completion s sets))

/-- The listener of a solve, which writes to the sink of the session. -/
def listener (request : SolveRequest) (spec : SearchSpec) (session : Session) :
    Listener ProtocolReporter :=
  let limit := if searchesAll request.options spec then request.options.limit? else some 1
  { (Listener.all limit : Listener ProtocolReporter) with
    retain := request.retain
    cost := spec.cost
    channel := session.channel
    reporter := some ⟨request.names, session.sink⟩ }

/-- The generator of seeds: that of the requested seed, or else the one that the session got
from the system. -/
def seeds (options : SolveOptions) (session : Session) : Generator :=
  match options.randomSeed with
  | some seed => Generator.ofSeed (UInt64.ofNat seed)
  | none => session.entropy

def context (request : SolveRequest) (spec : SearchSpec) (session : Session) :
    Context ProtocolReporter :=
  { Context.ofListener (listener request spec session) with
    clock := session.clock
    timeLimit := request.options.timeLimit?
    seeds := seeds request.options session
    journal := session.journal }

/-- Builds the tree of a search and runs it. The time limit of a solve is counted in milliseconds
by 64 bits, and this is too short for a run to break off unless the clock is close to the end of
its range. -/
def search (request : SolveRequest) (spec : SearchSpec) : Solving Searched := fun session =>
  let built := spec.build request.names session.store (context request spec session)
  match built.outcome with
  | .error e => .error e (session.after built.store built.context)
  | .ok .trivial =>
    .ok ⟨.trivial, SearchStatistics.ofTrivial, built.context.listener⟩
      (session.after built.store built.context)
  | .ok (.tree tree) =>
    let (result, st) := tree.run ⟨Progress.ofTree tree, built.store, built.context⟩
    let status :=
      SearchStatus.ofResult result (searchesAll request.options spec)
        st.context.listener.limitReached tree.isComplete
    .ok ⟨status, SearchStatistics.aggregate tree st.progress, st.context.listener⟩
      (session.after st.store st.context)

/-- Solves a search: writes about the model if asked to, searches, and writes how the search
ended. Faults of the search come before any search, and a fault of the output ends it. -/
def solve (request : SolveRequest) (spec : SearchSpec) : Solving SolveOutcome := do
  let options := request.options
  let s := (← get).store
  let modelVariables := s.size
  let modelConstraints := s.constraints.length
  note (.solveStarted modelVariables modelConstraints spec.goal (searchesAll options spec))
  if options.verbose then announce request.names spec
  let started ← readClock
  let searched ← search request spec
  let searchTime := (← readClock) - started
  match searched.listener.fault with
  | some fault => throw (.output fault)
  | none => pure ()
  let found := decide (0 < searched.listener.count)
  write (Protocol.writeLines (Protocol.statusLines searched.status found))
  let report : SolveReport := ⟨modelVariables, modelConstraints, searchTime, searched.statistics⟩
  if options.statistics then write (Protocol.writeLine report.render)
  write Sink.flush
  note (.solveEnded searched.status searched.statistics.solutions searched.statistics.nodes
    (searchTime / 1000000))
  return ⟨searched.status, found, report, searched.listener.last, searched.listener.kept.toList⟩

def solveItem (request : SolveRequest) (item : SolveItem) : Solving SolveOutcome := do
  match SearchSpec.ofItem item request.names (← get).store with
  | .error e => throw e
  | .ok spec => solve request spec

/-- Solves an item, and notes why it failed if it does. -/
def run (request : SolveRequest) (item : SolveItem) : Solving SolveOutcome := fun session =>
  match solveItem request item session with
  | .ok outcome session => .ok outcome session
  | .error e session => .error e { session with journal := session.journal.note (.failed e) }

end Solving

end StagedSearch
