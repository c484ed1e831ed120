import NostrLn.Service.Notifier
import NostrLn.Service.World

/-!
# The loop among the relays

What the relays and the client do is of three kinds to the loop: it is given an event, it fetches,
or nothing happens to it. Whatever holds of every list of iterations therefore holds of the service
among its relays.
-/

namespace NostrLn

variable {crypto : Crypto} {svc : Service} {codec : Codec} {w w' : World}

/-- The iteration of the loop that a step is, if it is one. The fetch at the start is counted among
those of a relay that came back. -/
def World.turnsAt (crypto : Crypto) (w : World) : Act → List Turn
  | .fetch => [.tick (some (some (w.client.receive crypto w.held).1))]
  | .fetchFails => [.tick (some none)]
  | .poll now =>
    match w.stage, w.receiver with
    | .listening, event :: _ => [.event event now]
    | _, _ => []
  | _ => []

/-- The iterations of the loop in a run, up to the first step that cannot be taken. -/
def World.turns (crypto : Crypto) (svc : Service) (codec : Codec) : World → List Act → List Turn
  | _, [] => []
  | w, act :: acts =>
    match w.step crypto svc codec act with
    | none => []
    | some w' => w.turnsAt crypto act ++ turns crypto svc codec w' acts

/-- To the loop, a step is the iteration that it is. -/
lemma World.loop_step {act : Act} (hstep : w.step crypto svc codec act = some w') :
    w'.loop = (w.turnsAt crypto act).foldl (svc.turn codec) w.loop := by
  cases World.stepped hstep with
  | publish event => rfl
  | drop event => rfl
  | deliver event hheld =>
    obtain ⟨early, late, hdeliver⟩ := w.exists_deliver crypto event
    rw [hdeliver]
    rfl
  | deliverUnseen event hheld =>
    obtain ⟨early, late, hdeliver⟩ := w.exists_deliverUnseen crypto event
    rw [hdeliver]
    rfl
  | fetch stage hstage => rfl
  | fetchFails stage hstage => rfl
  | listen hstage => rfl
  | poll now event rest hstage hreceiver =>
    simp only [World.turnsAt, hstage, hreceiver]
    rfl
  | evict keep => rfl

/-- To the loop, a run is its iterations. -/
lemma World.loop_run {acts : List Act} (hrun : w.run crypto svc codec acts = some w') :
    w'.loop = (w.turns crypto svc codec acts).foldl (svc.turn codec) w.loop := by
  induction acts generalizing w with
  | nil =>
    cases hrun
    rfl
  | cons act acts ih =>
    rw [World.run, List.foldlM_cons] at hrun
    obtain ⟨v, hstep, hrest⟩ := Option.bind_eq_some_iff.mp hrun
    rw [ih hrest, World.loop_step hstep, World.turns, hstep, ← List.foldl_append]

/-- Until something was fetched, or failed to be, the loop has done nothing; and it begins with
that. -/
lemma World.turns_of_fetched {acts : List Act} (hrun : w.run crypto svc codec acts = some w')
    (hstage : w.stage = .subscribed) (hstage' : w'.stage ≠ .subscribed) :
    ∃ found rest, w.turns crypto svc codec acts = .tick (some found) :: rest := by
  induction acts generalizing w with
  | nil =>
    cases hrun
    exact absurd hstage hstage'
  | cons act acts ih =>
    rw [World.run, List.foldlM_cons] at hrun
    obtain ⟨v, hstep, hrest⟩ := Option.bind_eq_some_iff.mp hrun
    have hturns : w.turns crypto svc codec (act :: acts) =
        w.turnsAt crypto act ++ v.turns crypto svc codec acts := by
      rw [World.turns, hstep]
    rw [hturns]
    cases World.stepped hstep with
    | fetch stage hiff => exact ⟨_, _, rfl⟩
    | fetchFails stage hiff => exact ⟨_, _, rfl⟩
    | listen hfetched =>
      rw [hstage] at hfetched
      cases hfetched
    | poll now event rest hlistening hreceiver =>
      rw [hstage] at hlistening
      cases hlistening
    | publish event => exact ih hrest hstage
    | drop event => exact ih hrest hstage
    | deliver event hheld =>
      obtain ⟨early, late, hdeliver⟩ := w.exists_deliver crypto event
      refine ih hrest ?_
      rw [hdeliver]
      exact hstage
    | deliverUnseen event hheld =>
      obtain ⟨early, late, hdeliver⟩ := w.exists_deliverUnseen crypto event
      refine ih hrest ?_
      rw [hdeliver]
      exact hstage
    | evict keep => exact ih hrest hstage

/-- Once its start-up has fetched, or failed to, the loop is where `run` gets to by what that gave
and some iterations. -/
lemma World.loop_eq_loopAfter {node : PublicKey} {acts : List Act}
    (hrun : (World.start svc node).run crypto svc codec acts = some w)
    (hstage : w.stage ≠ .subscribed) :
    ∃ found turns, w.loop = svc.loopAfter codec node found turns := by
  obtain ⟨found, rest, hturns⟩ := World.turns_of_fetched hrun rfl hstage
  refine ⟨found, rest, ?_⟩
  rw [World.loop_run hrun, hturns]
  rfl

/-- **The mirror among the relays.** Whatever they and the client do, from the first fetch on a
notifier reads the loop's own grants and subscriptions. -/
theorem World.mirrored (crypto : Crypto) (svc : Service) (codec : Codec) (node : PublicKey)
    (acts : List Act) (hrun : (World.start svc node).run crypto svc codec acts = some w)
    (hstage : w.stage ≠ .subscribed) : w.loop.delivery = w.loop.own := by
  obtain ⟨found, turns, hloop⟩ := World.loop_eq_loopAfter hrun hstage
  rw [hloop]
  exact svc.mirrored_loopAfter codec node found turns

end NostrLn
