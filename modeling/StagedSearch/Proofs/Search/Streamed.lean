/-
# The same search with another channel

A channel listens to a search and does not speak: the listener sends to it, and nothing looks at
what was sent. So a search with another channel takes the same steps, and it is never lost.

This makes a channel a means of observation. What an open channel has received tells which values
were handed over, whatever else the listener keeps or forgets.
-/

import StagedSearch.Proofs.Search.Adjusted
import StagedSearch.Proofs.Search.Reports

namespace StagedSearch

namespace Listener

variable {ρ : Type}

def streamTo (channel : Option Channel) (l : Listener ρ) : Listener ρ := { l with channel }

/-- What the channel is does not matter to anything else that accepting a store does. -/
theorem accept_streamTo [Reporter ρ] (channel : Option Channel) (l : Listener ρ) (s : Store) :
    (l.streamTo channel).accept s =
      ((l.accept s).1, (l.accept s).2.streamTo (channel.map (·.send (l.nextSolution s)))) := by
  unfold Listener.accept tell streamTo
  cases l.reporter <;> rfl

/-- A listener that never stops does not stop with another channel either. -/
theorem Endless.streamTo [Reporter ρ] {l : Listener ρ} (endless : l.Endless)
    (channel : Option Channel) : (l.streamTo channel).Endless :=
  ⟨endless.limit, endless.fault, endless.reporter⟩

theorem foldl_send_isOpen (solutions : List Solution) (sent : Array Solution) :
    solutions.foldl Channel.send ⟨true, sent⟩ = ⟨true, sent ++ solutions.toArray⟩ := by
  induction solutions generalizing sent with
  | nil => simp
  | cons solution rest ih =>
    have step : Channel.send ⟨true, sent⟩ solution = ⟨true, sent.push solution⟩ := rfl
    rw [List.foldl_cons, step, ih]
    simp

/-- An open channel receives the solutions of all stores that are accepted. -/
theorem channel_acceptAll [Reporter ρ] (l : Listener ρ) (stores : List Store) :
    ((l.streamTo (some .opened)).acceptAll stores).channel =
      some ⟨true, ((l.streamTo (some .opened)).solutions stores).toArray⟩ := by
  rw [((l.streamTo (some .opened)).reports_acceptAll stores).channel]
  show some (List.foldl Channel.send ⟨true, #[]⟩ _) = _
  rw [foldl_send_isOpen, Array.empty_append]

/-- With an open channel a listener tells stores with different values apart. -/
theorem map_value?_eq_of_acceptAll [Reporter ρ] {l : Listener ρ} {first second : List Store}
    (same : (l.streamTo (some .opened)).acceptAll first =
      (l.streamTo (some .opened)).acceptAll second) :
    first.map Store.value? = second.map Store.value? := by
  have sent := congrArg Listener.channel same
  rw [channel_acceptAll, channel_acceptAll] at sent
  have solutions : (l.streamTo (some .opened)).solutions first =
      (l.streamTo (some .opened)).solutions second := by simpa using sent
  rw [← (l.streamTo (some .opened)).value?_solutions, solutions, value?_solutions]

end Listener

namespace SearchState

variable {ρ : Type} [Reporter ρ] {st u : SearchState ρ}

def SameButChannel (st u : SearchState ρ) : Prop :=
  ∃ channel, u = st.adjust (Listener.streamTo channel)

omit [Reporter ρ] in
theorem parallel_sameButChannel :
    Parallel (SameButChannel : SearchState ρ → SearchState ρ → Prop) := by
  have parallel : Parallel fun st u : SearchState ρ =>
      ∃ channel, True ∧ True ∧ u = st.adjust (Listener.streamTo channel) :=
    Parallel.exists fun channel => parallel_adjust
      (show ∀ l : Listener ρ, True → (l.streamTo channel).count = l.count from fun _ _ => rfl)
  simp only [true_and] at parallel
  exact parallel

/-- A search with another channel takes the same steps, and is never lost. -/
theorem tracks_sameButChannel :
    Tracks (fun _ => False) (SameButChannel : SearchState ρ → SearchState ρ → Prop) where
  toParallel := parallel_sameButChannel
  goesOn _ := id
  lost_setState _ _ := id
  lost_popLevel := id
  expired := by
    rintro st _ id ⟨channel, rfl⟩
    rw [expired_adjust]
    exact .inr ⟨rfl, channel, rfl⟩
  acceptAt := by
    rintro st _ id node ⟨channel, rfl⟩
    rw [acceptAt_adjust id node rfl (Listener.accept_streamTo channel _ st.store) rfl]
    exact .inr ⟨rfl, _, rfl⟩

end SearchState

namespace SearchTree

variable {ρ : Type} [Reporter ρ] {t : SearchTree} {st : SearchState ρ} {steps : List (SearchStep ρ)}

/-- A run with another channel hands over the same stores. -/
theorem Follows.exists_streamTo (follows : t.Follows st steps) (channel : Option Channel) :
    ∃ whole, t.Follows (st.adjust (Listener.streamTo channel)) whole ∧
      SearchStep.accepted whole = SearchStep.accepted steps := by
  obtain ⟨whole, follows', tracked, -⟩ := follows.exists_tracked
    SearchState.tracks_sameButChannel ⟨channel, rfl⟩ ⟨channel, started_adjust _⟩
  exact ⟨whole, follows', (tracked.all not_false).1⟩

/-- What a run hands over can be told from the listener that the same run with an open channel
leaves behind. -/
theorem Follows.map_value?_eq (follows : t.Follows st steps) {stores : List Store}
    (listener : (t.run (st.adjust (Listener.streamTo (some .opened)))).2.context.listener =
      (st.context.listener.streamTo (some .opened)).acceptAll stores) :
    (SearchStep.accepted steps).map Store.value? = stores.map Store.value? := by
  obtain ⟨whole, follows', accepted⟩ := follows.exists_streamTo (some .opened)
  have left := follows'.listener
  rw [accepted] at left
  exact Listener.map_value?_eq_of_acceptAll (left.symm.trans listener)

/-- A run with another channel comes to the same result, and to the same state but for the
channel. -/
theorem exists_run_streamTo (t : SearchTree) (st : SearchState ρ) (channel : Option Channel) :
    ∃ channel', t.run (st.adjust (Listener.streamTo channel)) =
      ((t.run st).1, (t.run st).2.adjust (Listener.streamTo channel')) := by
  obtain ⟨steps, follows⟩ := t.exists_follows st
  obtain ⟨whole, -, tracked, result⟩ := follows.exists_tracked SearchState.tracks_sameButChannel
    ⟨channel, rfl⟩ ⟨channel, started_adjust _⟩
  obtain ⟨-, -, channel', same⟩ := tracked.all not_false
  exact ⟨channel', Prod.ext (result not_false) same⟩

end SearchTree

end StagedSearch
