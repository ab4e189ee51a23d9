import Kirin.Application
import Kirin.Library.History

/-!
# Kirin: the configuration of the workers

Between two looks of a worker at the table of contributors, its contributor may be
deactivated or configured otherwise.

* `Follows`: what is known of a worker, from its last iteration on.
* `Follows.iterate`: what an iteration tells of the contributor.
* `AllFollow.step`: it stays known whatever the others do.
* `worker_follows_configuration`: a worker waits for messages with a configuration
  that its contributor had a short time before, or for the last time.
-/

namespace Kirin

open Kirin.Core
open Kirin.Resources (Contributor ContributorTable Request)
open History (Once once_of_now)
open Relation (ReflTransGen)

section Steps

variable {ι : Type} [DecidableEq ι]
variable {confReloadInterval : Timedelta} {s s' start : App ι} {i : ι}
variable {p : Process} {w : Piv.PivWorker}

/-- The contributor of a worker is in the table, as it was for its start. -/
def WatchedAt (w : Piv.PivWorker) (t : Datetime) (s : App ι) : Prop :=
  s.now = t ∧ w.Watches s.contributors

/-- The contributor of a worker is not in the table, or has changed. -/
def UnwatchedAt (w : Piv.PivWorker) (t : Datetime) (s : App ι) : Prop :=
  s.now = t ∧ ¬w.Watches s.contributors

/-- What is known of a worker, from its last iteration on. -/
def Follows (confReloadInterval : Timedelta) (start s : App ι)
    (w : Piv.PivWorker) : Option Datetime → Prop
  | none =>
      w.shouldStop = false →
        Once (Step confReloadInterval) start (WatchedAt w w.lastConfigCheckedTime)
          s
  | some t =>
      t ≤ s.now ∧
        ((w.shouldStop = false ∧ w.lastConfigCheckedTime ≤ t ∧
            (t = w.lastConfigCheckedTime ∨
              t < w.lastConfigCheckedTime + confReloadInterval) ∧
            Once (Step confReloadInterval) start
              (WatchedAt w w.lastConfigCheckedTime) s) ∨
          (w.shouldStop = true ∧
            Once (Step confReloadInterval) start (UnwatchedAt w t) s))

theorem Step.now_le
    (hstep : Step confReloadInterval s s') :
    s.now ≤ s'.now := by
  cases hstep with
  | wait t h =>
      exact h
  | configure | purgeContributor | findCots | find | post | pollFailed | close
  | startWorker | iterate | message | messageRefused | noMessage
  | planTripUpdates | planRtUpdates | purgeTripUpdates | purgeRtUpdates =>
      exact Int.le_refl _

/-- The instant of a state that a run has gone through is not after the current. -/
theorem now_le_of_run
    (hrun : ReflTransGen (Step confReloadInterval) s s') :
    s.now ≤ s'.now := by
  induction hrun with
  | refl =>
      exact Int.le_refl _
  | tail _ hstep ih =>
      exact ih.trans hstep.now_le

/-- What is known of a worker stays known. -/
theorem Follows.tail
    {since : Option Datetime} (h : Follows confReloadInterval start s w since)
    (hstep : Step confReloadInterval s s') :
    Follows confReloadInterval start s' w since := by
  cases since with
  | none =>
      exact fun hgo => (h hgo).tail hstep
  | some t =>
      obtain ⟨hnow, hwatch⟩ := h
      refine ⟨hnow.trans hstep.now_le, ?_⟩
      rcases hwatch with ⟨hgo, hlast, hrecent, honce⟩ | ⟨hstop, honce⟩
      · exact Or.inl ⟨hgo, hlast, hrecent, honce.tail hstep⟩
      · exact Or.inr ⟨hstop, honce.tail hstep⟩

/-- Once a worker has stopped waiting, what is known of it is less. -/
theorem Follows.waited
    {t : Datetime} (h : Follows confReloadInterval start s w (some t)) :
    Follows confReloadInterval start s w none := by
  intro hgo
  rcases h.2 with ⟨-, -, -, honce⟩ | ⟨hstop, -⟩
  · exact honce
  · rw [hgo] at hstop
    cases hstop

/-- An iteration looks at the contributors, or they were looked at before. -/
theorem Follows.iterate
    (hrun : ReflTransGen (Step confReloadInterval) start s)
    (h : Follows confReloadInterval start s w none)
    (hgo : w.shouldStop = false) {found : List Contributor}
    (hfound : found.Perm (s.contributors.findByConnectorType .piv false)) :
    Follows confReloadInterval start s
      (w.onIteration confReloadInterval s.now found) (some s.now) := by
  refine ⟨Int.le_refl _, ?_⟩
  have honce := h hgo
  have hlast : w.lastConfigCheckedTime ≤ s.now := by
    obtain ⟨s1, -, hafter, hnow, -⟩ := honce
    exact hnow ▸ now_le_of_run hafter
  rcases Piv.onIteration_cases hfound confReloadInterval s.now hgo with
    ⟨hrecent, hw⟩ | ⟨hwatches, hw⟩ | ⟨hchanged, hw⟩
  · rw [hw]
    exact Or.inl ⟨hgo, hlast, Or.inr hrecent, honce⟩
  · rw [hw]
    exact Or.inl ⟨hgo, Int.le_refl _, Or.inl rfl,
      once_of_now hrun ⟨rfl, hwatches⟩⟩
  · rw [hw]
    exact Or.inr ⟨rfl, once_of_now hrun ⟨rfl, hchanged⟩⟩

/-- What is known of the workers, all along a run. -/
def AllFollow (confReloadInterval : Timedelta) (start s : App ι) : Prop :=
  ∀ i w failed since, s.process i = .consuming w failed since →
    Follows confReloadInterval start s w since

/-- A step changes one process, the others being followed as before. -/
theorem AllFollow.of_process
    (h : AllFollow confReloadInterval start s)
    (hstep : Step confReloadInterval s s')
    (hprocess : s'.process = (s.goTo i p).process)
    (hown : ∀ w failed since, p = .consuming w failed since →
      Follows confReloadInterval start s w since) :
    AllFollow confReloadInterval start s' := by
  intro j w failed since hj
  rw [hprocess, goTo_process] at hj
  split at hj
  · exact (hown w failed since hj).tail hstep
  · exact (h j w failed since hj).tail hstep

theorem AllFollow.step
    (h : AllFollow confReloadInterval start s)
    (hrun : ReflTransGen (Step confReloadInterval) start s)
    (hstep : Step confReloadInterval s s') :
    AllFollow confReloadInterval start s' := by
  have hkept : s'.process = s.process →
      AllFollow confReloadInterval start s' := by
    intro hsame i w failed since hi
    rw [hsame] at hi
    exact (h i w failed since hi).tail hstep
  cases hstep with
  | wait | configure | purgeContributor | planTripUpdates | planRtUpdates
  | purgeTripUpdates | purgeRtUpdates =>
      exact hkept rfl
  | findCots hi hfound hc =>
      exact h.of_process (.findCots hi hfound hc) rfl (fun _ _ _ hp => nomatch hp)
  | find hi he hc =>
      exact h.of_process (.find hi he hc) rfl (fun _ _ _ hp => nomatch hp)
  | post hi hid p he hp hnew =>
      exact h.of_process (.post hi hid p he hp hnew) rfl
        (fun _ _ _ hp => nomatch hp)
  | pollFailed hi hid hb id error hnew =>
      exact h.of_process (.pollFailed hi hid hb id error hnew) rfl
        (fun _ _ _ hp => nomatch hp)
  | close i =>
      exact h.of_process (.close i) rfl (fun _ _ _ hp => nomatch hp)
  | @startWorker i found c w hi hfound hc hw =>
      refine h.of_process (.startWorker hi hfound hc hw) rfl ?_
      rintro w' failed since hp
      cases hp
      obtain ⟨-, hlast, -, hwatches⟩ := Piv.init_eq_ok hw
      have hmem := (ContributorTable.mem_findByConnectorType_iff.1
        (hfound.mem_iff.1 (List.mem_of_mem_head? hc))).1
      exact fun _ => once_of_now hrun ⟨hlast.symm, hwatches _ hmem⟩
  | @iterate i w failed found hi hgo hlook hfound =>
      refine h.of_process (.iterate hi hgo hlook hfound) rfl ?_
      rintro w' failed' since hp
      cases hp
      exact (h i w failed none hi).iterate hrun hgo hfound
  | @message i w failed' t hi hid m hraw hnew hsession =>
      refine h.of_process (.message hi hid m hraw hnew hsession) rfl ?_
      rintro w' failed'' since hp
      cases hp
      exact (h i w false (some t) hi).waited
  | @messageRefused i w failed failed' t hi raw hrefused hfailed =>
      refine h.of_process (.messageRefused hi raw hrefused hfailed) rfl ?_
      rintro w' failed'' since hp
      cases hp
      exact (h i w failed (some t) hi).waited
  | @noMessage i w failed t hi =>
      refine h.of_process (.noMessage hi) rfl ?_
      rintro w' failed' since hp
      cases hp
      exact (h i w failed (some t) hi).waited

/-- A process that goes on is another one, or is in the phase that the step needs. -/
theorem process_of_other
    {j : ι} (hprocess : s'.process = (s.goTo j p).process)
    (hj : s.process j ≠ s.process i) :
    s'.process i = s.process i := by
  rw [hprocess, goTo_process, if_neg]
  rintro rfl
  exact hj rfl

/-- A worker that is told to stop can only end. -/
theorem Step.stopped
    (hstep : Step confReloadInterval s s') {failed : Bool}
    (hi : s.process i = .consuming w failed none) (hstop : w.shouldStop = true) :
    s'.process i = s.process i ∨ s'.process i = .idle := by
  cases hstep with
  | wait | configure | purgeContributor | planTripUpdates | planRtUpdates
  | purgeTripUpdates | purgeRtUpdates =>
      exact Or.inl rfl
  | close j =>
      by_cases hj : i = j
      · exact Or.inr (by rw [goTo_process, if_pos hj])
      · exact Or.inl (by rw [goTo_process, if_neg hj])
  | findCots hj hfound hc =>
      exact Or.inl (process_of_other rfl (by rw [hj, hi]; exact nofun))
  | find hj he hc =>
      exact Or.inl (process_of_other rfl (by rw [hj, hi]; exact nofun))
  | startWorker hj hfound hc hw =>
      exact Or.inl (process_of_other rfl (by rw [hj, hi]; exact nofun))
  | post hj hid p he hp hnew =>
      exact Or.inl (process_of_other rfl (by rw [hj, hi]; exact nofun))
  | pollFailed hj hid hb id error hnew =>
      exact Or.inl (process_of_other rfl (by rw [hj, hi]; exact nofun))
  | message hj hid m hraw hnew hsession =>
      exact Or.inl (process_of_other rfl (by rw [hj, hi]; exact nofun))
  | messageRefused hj raw hrefused hfailed =>
      exact Or.inl (process_of_other rfl (by rw [hj, hi]; exact nofun))
  | noMessage hj =>
      exact Or.inl (process_of_other rfl (by rw [hj, hi]; exact nofun))
  | @iterate j w' failed' found hj hgo hlook hfound =>
      refine Or.inl (process_of_other rfl ?_)
      rw [hj, hi]
      rintro hsame
      cases hsame
      rw [hstop] at hgo
      cases hgo

/--
Whatever the order in which the contributors are configured and the processes go
on, a worker that waits for a message since an iteration:

* goes on, and its contributor was active, of the PIV connector and configured as
  for the start of the worker, at an instant that is that of the iteration or less
  than the interval before;
* or is told to stop, and its contributor was not so any more at the instant of the
  iteration.

A worker that is told to stop never waits for another message.
-/
theorem worker_follows_configuration
    (hidle : ∀ i, start.process i = .idle)
    (hrun : ReflTransGen (Step confReloadInterval) start s) :
    (∀ i w failed t, s.process i = .consuming w failed (some t) →
      t ≤ s.now ∧
        ((w.shouldStop = false ∧ w.lastConfigCheckedTime ≤ t ∧
            (t = w.lastConfigCheckedTime ∨
              t < w.lastConfigCheckedTime + confReloadInterval) ∧
            Once (Step confReloadInterval) start
              (WatchedAt w w.lastConfigCheckedTime) s) ∨
          (w.shouldStop = true ∧
            Once (Step confReloadInterval) start (UnwatchedAt w t) s))) ∧
    ∀ i w failed s', s.process i = .consuming w failed none →
      w.shouldStop = true → Step confReloadInterval s s' →
        s'.process i = s.process i ∨ s'.process i = .idle := by
  have hall : AllFollow confReloadInterval start s := by
    induction hrun with
    | refl =>
        intro i w failed since hi
        rw [hidle i] at hi
        cases hi
    | tail hrun hstep ih =>
        exact ih.step hrun hstep
  refine ⟨fun i w failed t hi => hall i w failed (some t) hi, ?_⟩
  intro i w failed s' hi hstop hstep
  exact hstep.stopped hi hstop

end Steps

namespace Sample

/-- The worker of a contributor, when it starts. -/
def pivWorker : Piv.PivWorker where
  contributorId := "realtime.piv"
  brokerUrl := some "amqp://broker"
  navitiaCoverage := "sncf"
  navitiaToken := none
  exchangeName := some "piv"
  queueName := some "kirin"
  lastConfigCheckedTime := 0
  shouldStop := false

/-- A worker has started for a contributor. -/
def startedApp : App Unit :=
  { emptyApp.goTo () (.consuming pivWorker false none) with
    contributors :=
      Resources.step Resources.emptyTable (pivCreated "realtime.piv") }

/-- Its contributor is deactivated, and a minute has passed. -/
def lateApp : App Unit :=
  { startedApp with
    now := 60000000
    contributors := Resources.step startedApp.contributors pivDeleted }

/-- It has looked at the contributors. -/
def stoppedWorker : Piv.PivWorker :=
  { pivWorker with lastConfigCheckedTime := 60000000, shouldStop := true }

/-- It waits for its last message. -/
def lastIteration : App Unit :=
  lateApp.goTo () (.consuming stoppedWorker false (some 60000000))

end Sample

/-- The contributor of the worker of `lastIteration` was not active any more. -/
theorem worker_follows_configuration_lastIteration :
    Once (Step 60000000) Sample.emptyApp
      (UnwatchedAt Sample.stoppedWorker 60000000) Sample.lastIteration := by
  have hfound : [Sample.pivContributor "realtime.piv"].Perm
      ((Resources.step Resources.emptyTable
        (Sample.pivCreated "realtime.piv")).findByConnectorType .piv false) := by
    decide
  have hnone : [].Perm
      (Sample.lateApp.contributors.findByConnectorType .piv false) := by
    decide
  have hstarted :
      ReflTransGen (Step 60000000) Sample.emptyApp Sample.startedApp :=
    (ReflTransGen.single (.configure (Sample.pivCreated "realtime.piv"))).tail
      (.startWorker (i := ()) rfl hfound rfl (by decide))
  have hrun :
      ReflTransGen (Step 60000000) Sample.emptyApp Sample.lastIteration :=
    ((hstarted.tail (.wait 60000000 (by decide))).tail
      (.configure Sample.pivDeleted)).tail
      (.iterate (i := ()) (w := Sample.pivWorker) rfl rfl (by decide) hnone)
  have hfollows := (worker_follows_configuration (fun _ => rfl) hrun).1 ()
    Sample.stoppedWorker false 60000000 rfl
  rcases hfollows.2 with ⟨hgo, -⟩ | ⟨-, honce⟩
  · cases hgo
  · exact honce

end Kirin
