import Mathlib.Data.Finset.Basic
import Mathlib.Data.Finset.SDiff

/-!
# Noticing that a relay has come back

The client does not say when a relay connects, so the loop looks at every tick which relays are
connected, and re-reads if one of them was not at the tick before. Reading takes time, and relays
come and go meanwhile. What was seen connected is remembered, whatever became of the re-read.
-/

namespace NostrLn

/-- Where the loop is: the fetch of the start is under way; it has returned, and nobody has looked
yet which relays are connected; between two ticks; or re-reading, having seen these connected. -/
inductive Phase
  | fetching
  | fetched
  | idle
  | rereading (nowConnected : Finset String)
deriving DecidableEq

/-- The relays that are connected, and those the loop believes to be. -/
structure Watch where
  up : Finset String
  connected : Finset String
  phase : Phase
deriving DecidableEq

/-- What can happen: a relay connects or disconnects; the fetch under way succeeds or fails; the
loop looks for the first time, or at a tick. -/
inductive Happening
  | connect (relay : String)
  | disconnect (relay : String)
  | answered
  | failed
  | sample
  | tick
deriving DecidableEq

/-- `run` begins to fetch; no relay has connected yet. -/
def Watch.start : Watch := { up := ∅, connected := ∅, phase := .fetching }

/-- The fetch under way has returned, with or without success. -/
def Watch.refreshed (w : Watch) : Option Watch :=
  match w.phase with
  | .fetching => some { w with phase := .fetched }
  | .rereading nowConnected => some { w with connected := nowConnected, phase := .idle }
  | _ => none

/-- What happens next, if it can. -/
def Watch.step (w : Watch) : Happening → Option Watch
  | .connect relay => if relay ∈ w.up then none else some { w with up := insert relay w.up }
  | .disconnect relay => if relay ∈ w.up then some { w with up := w.up.erase relay } else none
  | .answered => w.refreshed
  | .failed => w.refreshed
  | .sample =>
    match w.phase with
    | .fetched => some { w with connected := w.up, phase := .idle }
    | _ => none
  | .tick =>
    match w.phase with
    | .idle =>
      if w.up \ w.connected = ∅ then some { w with connected := w.up }
      else some { w with phase := .rereading w.up }
    | _ => none

/-- Where things stand after a history, newest first. -/
def Watch.after : List Happening → Option Watch
  | [] => some Watch.start
  | h :: past => (Watch.after past).bind fun w => w.step h

/-- The state has been read since the relay last connected. -/
def ReadSince (relay : String) (past : List Happening) : Prop :=
  ∃ since before, past = since ++ .connect relay :: before ∧ .connect relay ∉ since ∧
    .answered ∈ since

/-- Nothing goes unnoticed in this step. A relay that the loop takes to be connected does not come
back between two ticks, none connects between the first fetch and the first look, and no fetch
fails, unless it is the first and no relay is there to be seen. -/
def Watch.Noticed (w : Watch) : Happening → Prop
  | .connect relay => w.phase ≠ .fetched ∧ (w.phase = .idle → relay ∉ w.connected)
  | .failed => w.phase = .fetching ∧ w.up = ∅
  | _ => True

instance (w : Watch) : (h : Happening) → Decidable (w.Noticed h)
  | .connect _ => inferInstanceAs (Decidable (_ ∧ _))
  | .failed => inferInstanceAs (Decidable (_ ∧ _))
  | .disconnect _ => isTrue trivial
  | .answered => isTrue trivial
  | .sample => isTrue trivial
  | .tick => isTrue trivial

/-- Nothing went unnoticed in the whole history. -/
def Heeded : List Happening → Prop
  | [] => True
  | h :: past => Heeded past ∧ ∀ w ∈ Watch.after past, w.Noticed h

instance Heeded.decidable : (past : List Happening) → Decidable (Heeded past)
  | [] => isTrue trivial
  | _ :: past =>
    have := Heeded.decidable past
    inferInstanceAs (Decidable (_ ∧ _))

/-! ### What one step keeps -/

variable {relay : String} {h : Happening} {past : List Happening} {w w' : Watch}

lemma ReadSince.cons (hread : ReadSince relay past) (hne : h ≠ .connect relay) :
    ReadSince relay (h :: past) := by
  obtain ⟨since, before, rfl, hsince, hanswered⟩ := hread
  refine ⟨h :: since, before, rfl, ?_, by simp [hanswered]⟩
  simp [hsince, Ne.symm hne]

/-- A success is one since the last time any relay connected. -/
lemma readSince_answered (hmem : .connect relay ∈ past) :
    ReadSince relay (.answered :: past) := by
  obtain ⟨since, before, rfl, hsince⟩ := List.eq_append_cons_of_mem hmem
  exact ⟨.answered :: since, before, rfl, by simp [hsince], by simp⟩

/-- What the loop relies on: whatever is connected, or was seen to be, did connect; and what it
takes to be connected, or would if it looked for the first time, has been read since. -/
structure Watch.Sound (past : List Happening) (w : Watch) : Prop where
  up : ∀ relay ∈ w.up, .connect relay ∈ past
  fetched : w.phase = .fetched → ∀ relay ∈ w.up, ReadSince relay past
  idle : w.phase = .idle → ∀ relay ∈ w.connected, ReadSince relay past
  rereading : ∀ nowConnected, w.phase = .rereading nowConnected →
    ∀ relay ∈ nowConnected, .connect relay ∈ past

lemma Watch.sound_start : Watch.Sound [] Watch.start where
  up relay hrelay := by simp [Watch.start] at hrelay
  fetched hphase := by cases hphase
  idle hphase := by cases hphase
  rereading _ hphase := by cases hphase

/-- A fetch that succeeds: everything that is connected has been read since. -/
lemma Watch.Sound.answered (hs : w.Sound past) (hstep : w.refreshed = some w') :
    w'.Sound (.answered :: past) := by
  rw [Watch.refreshed] at hstep
  split at hstep
  · cases hstep
    refine ⟨fun relay hrelay => by simp [hs.up relay hrelay], ?_, by simp, by simp⟩
    intro _ relay hrelay
    exact readSince_answered (hs.up relay hrelay)
  · rename_i nowConnected hphase
    cases hstep
    refine ⟨fun relay hrelay => by simp [hs.up relay hrelay], by simp, ?_, by simp⟩
    intro _ relay hrelay
    exact readSince_answered (hs.rereading nowConnected hphase relay hrelay)
  · cases hstep

/-- The first fetch fails with nothing connected. -/
lemma Watch.Sound.failed (hs : w.Sound past) (hnoticed : w.Noticed .failed)
    (hstep : w.refreshed = some w') : w'.Sound (.failed :: past) := by
  obtain ⟨hphase, hup⟩ := hnoticed
  simp only [Watch.refreshed, hphase] at hstep
  cases hstep
  refine ⟨?_, ?_, by simp, by simp⟩
  · intro relay hrelay
    simp [hs.up relay hrelay]
  · intro _ relay hrelay
    simp [hup] at hrelay

lemma Watch.Sound.step (hs : w.Sound past) (hnoticed : w.Noticed h) (hstep : w.step h = some w') :
    w'.Sound (h :: past) := by
  cases h with
  | connect relay =>
    obtain ⟨hfetched, hidle⟩ := hnoticed
    simp only [Watch.step] at hstep
    split at hstep
    · cases hstep
    · cases hstep
      refine ⟨?_, fun hphase => absurd hphase hfetched, ?_, ?_⟩
      · intro r hr
        rcases Finset.mem_insert.mp hr with rfl | hr
        · simp
        · simp [hs.up r hr]
      · intro hphase r hr
        refine (hs.idle hphase r hr).cons ?_
        rintro ⟨rfl⟩
        exact hidle hphase hr
      · intro nowConnected hphase r hr
        simp [hs.rereading nowConnected hphase r hr]
  | disconnect relay =>
    simp only [Watch.step] at hstep
    split at hstep
    · cases hstep
      refine ⟨?_, ?_, ?_, ?_⟩
      · intro r hr
        simp [hs.up r (Finset.mem_of_mem_erase hr)]
      · intro hphase r hr
        exact (hs.fetched hphase r (Finset.mem_of_mem_erase hr)).cons (by simp)
      · intro hphase r hr
        exact (hs.idle hphase r hr).cons (by simp)
      · intro nowConnected hphase r hr
        simp [hs.rereading nowConnected hphase r hr]
    · cases hstep
  | answered => exact hs.answered hstep
  | failed => exact hs.failed hnoticed hstep
  | sample =>
    simp only [Watch.step] at hstep
    split at hstep
    · rename_i hphase
      cases hstep
      refine ⟨fun r hr => by simp [hs.up r hr], by simp, ?_, by simp⟩
      intro _ r hr
      exact (hs.fetched hphase r hr).cons (by simp)
    · cases hstep
  | tick =>
    simp only [Watch.step] at hstep
    split at hstep
    · rename_i hphase
      split at hstep
      · -- everything that is connected was, at the tick before
        rename_i hnone
        cases hstep
        refine ⟨fun r hr => by simp [hs.up r hr], by simp [hphase], ?_, by simp [hphase]⟩
        intro _ r hr
        have hr' : r ∈ w.connected := Finset.sdiff_eq_empty_iff_subset.mp hnone hr
        exact (hs.idle hphase r hr').cons (by simp)
      · cases hstep
        refine ⟨fun r hr => by simp [hs.up r hr], by simp, by simp, ?_⟩
        intro nowConnected hnow r hr
        cases hnow
        simp [hs.up r hr]
    · cases hstep

/-- What the loop relies on holds along every history in which nothing went unnoticed. -/
lemma Watch.sound_after (hheeded : Heeded past) (hafter : Watch.after past = some w) :
    w.Sound past := by
  induction past generalizing w with
  | nil =>
    cases hafter
    exact Watch.sound_start
  | cons h past ih =>
    obtain ⟨hpast, hnoticed⟩ := hheeded
    obtain ⟨v, hv, hstep⟩ := Option.bind_eq_some_iff.mp hafter
    exact (ih hpast hv).step (hnoticed v hv) hstep

/-- **Reconnecting re-reads.** In every history in which nothing went unnoticed, whenever the loop
is between two ticks, the state has been read since any relay it takes to be connected last
connected. -/
theorem reconnect_rereads (past : List Happening) (w : Watch) (hheeded : Heeded past)
    (hafter : Watch.after past = some w) (hidle : w.phase = .idle) (relay : String)
    (hrelay : relay ∈ w.connected) : ReadSince relay past :=
  (Watch.sound_after hheeded hafter).idle hidle relay hrelay

namespace Sample

/-- A relay drops and comes back between two ticks. -/
def flap : List Happening :=
  [.tick, .connect "r", .disconnect "r", .sample, .answered, .connect "r"]

/-- The tick between finds it gone, and the next one finds it back. -/
def noticedFlap : List Happening :=
  [.answered, .tick, .connect "r", .tick, .disconnect "r", .sample, .answered, .connect "r"]

end Sample

open Sample in
/-- What comes back between two ticks is taken never to have been away. -/
theorem flap_unnoticed :
    ¬ ∀ (past : List Happening) (w : Watch), Watch.after past = some w → w.phase = .idle →
      ∀ relay ∈ w.connected, ReadSince relay past := by
  intro h
  obtain ⟨since, before, heq, hsince, hanswered⟩ :=
    h flap { up := {"r"}, connected := {"r"}, phase := .idle } (by decide +kernel) rfl "r" (by simp)
  match since with
  | [] => cases heq
  | [h] =>
    cases heq
    simp at hanswered
  | _ :: h :: _ =>
    simp only [flap, List.cons_append, List.cons.injEq] at heq
    simp [← heq.2.1] at hsince

open Sample in
/-- What a tick finds gone is read again when it is back. -/
theorem reconnect_rereads_flap : ReadSince "r" noticedFlap :=
  reconnect_rereads noticedFlap { up := {"r"}, connected := {"r"}, phase := .idle }
    (by decide +kernel) (by decide +kernel) rfl "r" (by simp)

end NostrLn
