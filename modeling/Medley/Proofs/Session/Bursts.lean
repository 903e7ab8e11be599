import Mathlib.Algebra.GroupWithZero.Nat
import Medley.Debounce

/-! Bursts of changes. While its clock stands still a debouncer is told of changes, flushed and
cancelled in any order. What it reports is said by what was done before alone, and each path that it
was told of is reported, dropped or still held. -/
namespace Medley.Debouncer

inductive Act where
  | trigger (path : Option String)
  | flush
  | cancel
  deriving DecidableEq, Repr

def Act.path? : Act → Option String
  | trigger path => path
  | _ => none

def act (d : Debouncer) : Act → Debouncer × Option Report
  | .trigger path => d.trigger path
  | .flush => d.flush
  | .cancel => (d.cancel, none)

/- An act, what was reported at it, and how many paths it dropped. -/
structure Event where
  act : Act
  report : Option Report
  dropped : Nat
  deriving DecidableEq, Repr

def event (d : Debouncer) (a : Act) : Event :=
  ⟨a, (d.act a).2, match a with | .cancel => d.changes.length | _ => 0⟩

def play (d : Debouncer) : List Act → Debouncer × List Event
  | [] => (d, [])
  | a :: past => (((d.play past).1.act a).1, (d.play past).1.event a :: (d.play past).2)

namespace Event

def logged (e : Event) : Nat := (e.report.map Report.changes).getD 0

def settles (e : Event) : Bool :=
  match e.act with
  | .trigger _ => false
  | .flush => e.report.isSome
  | .cancel => true

end Event

/-- The triggers since the last flush that reported something and since the last cancellation. -/
def since : List Event → List (Option String)
  | [] => []
  | e :: past =>
      if e.settles then []
      else match e.act with
        | .trigger path => path :: since past
        | _ => since past

/- What is due with a delay, and held until then. -/
structure Awaits (d : Debouncer) (past : List Event) : Prop where
  delayed : d.delayed = true
  pending : d.pending = !(since past).isEmpty
  held : d.changes.length = ((since past).filterMap id).length

theorem awaitsNothing {d : Debouncer} (delayed : d.delayed = true) (idle : d.pending = false)
    (empty : d.changes = []) : d.Awaits [] :=
  ⟨delayed, idle, by simp [empty, since]⟩

theorem Awaits.flushed {d : Debouncer} {past : List Event} (h : d.Awaits past) :
    d.flush.2 = if since past = [] then none else some ⟨((since past).filterMap id).length⟩ := by
  rw [flush, h.pending]
  cases triggers : since past with
  | nil => rfl
  | cons path more => simp [fire, h.held, triggers]

theorem Awaits.next {d : Debouncer} {past : List Event} (h : d.Awaits past) (a : Act) :
    (d.act a).1.Awaits (d.event a :: past) := by
  obtain ⟨delayed, pending, held⟩ := h
  cases a with
  | trigger path =>
    refine ⟨?_, ?_, ?_⟩
    · simp [act, trigger, delayed]
    · simp [act, trigger, delayed, since, event, Event.settles]
    · cases path <;> simp [act, trigger, delayed, since, event, Event.settles, held]
  | flush =>
    cases triggers : since past with
    | nil =>
      have idle : d.pending = false := by rw [pending, triggers]; rfl
      have rest : since (d.event .flush :: past) = [] := by
        simp [since, event, Event.settles, triggers]
      have same : (d.act .flush).1 = d := by simp [act, flush, idle]
      rw [same]
      exact ⟨delayed, by rw [idle, rest]; rfl, by rw [held, triggers, rest]⟩
    | cons path more =>
      have due : d.pending = true := by rw [pending, triggers]; rfl
      refine ⟨?_, ?_, ?_⟩ <;>
        simp [act, flush, fire, due, delayed, since, event, Event.settles]
  | cancel =>
    refine ⟨?_, ?_, ?_⟩ <;> simp [act, cancel, delayed, since, event, Event.settles]

theorem playAwaits {d : Debouncer} (h : d.Awaits []) (past : List Act) :
    (d.play past).1.Awaits (d.play past).2 := by
  induction past with
  | nil => exact h
  | cons a past ih => exact ih.next a

structure Prompt (d : Debouncer) : Prop where
  prompt : d.delayed = false
  idle : d.pending = false
  empty : d.changes = []

theorem Prompt.next {d : Debouncer} (h : d.Prompt) (a : Act) : (d.act a).1.Prompt := by
  obtain ⟨prompt, idle, empty⟩ := h
  cases a with
  | trigger path => refine ⟨?_, ?_, ?_⟩ <;> simp [act, trigger, fire, prompt]
  | flush => refine ⟨?_, ?_, ?_⟩ <;> simp [act, flush, idle, prompt, empty]
  | cancel => refine ⟨?_, ?_, ?_⟩ <;> simp [act, cancel, prompt]

theorem playPrompt {d : Debouncer} (h : d.Prompt) (past : List Act) : (d.play past).1.Prompt := by
  induction past with
  | nil => exact h
  | cons a past ih => exact ih.next a

theorem Prompt.reports {d : Debouncer} (h : d.Prompt) (a : Act) :
    (d.act a).2 = match a with
      | .trigger path => some ⟨path.toList.length⟩
      | _ => none := by
  obtain ⟨prompt, idle, empty⟩ := h
  cases a with
  | trigger path => simp [act, trigger, fire, prompt, empty]
  | flush => simp [act, flush, idle]
  | cancel => rfl

/- An act adds its path to what is held, and what it takes away is logged or dropped. -/
theorem balanced (d : Debouncer) (a : Act) :
    (d.event a).logged + (d.event a).dropped + (d.act a).1.changes.length =
      d.changes.length + a.path?.toList.length := by
  cases a with
  | trigger path =>
    by_cases wait : d.delayed = true <;>
      simp [event, act, trigger, fire, wait, Event.logged, Act.path?]
  | flush =>
    by_cases due : d.pending = true <;>
      simp [event, act, flush, fire, due, Event.logged, Act.path?]
  | cancel => simp [event, act, cancel, Event.logged, Act.path?]

theorem playBalanced (d : Debouncer) (past : List Act) :
    ((d.play past).2.map Event.logged).sum + ((d.play past).2.map Event.dropped).sum +
        (d.play past).1.changes.length = d.changes.length + (past.filterMap Act.path?).length := by
  induction past with
  | nil => simp [play]
  | cons a past ih =>
    have step := (d.play past).1.balanced a
    have counted : ((a :: past).filterMap Act.path?).length =
        (past.filterMap Act.path?).length + a.path?.toList.length := by
      cases path : a.path? <;> simp [path]
    simp only [play, List.map_cons, List.sum_cons]
    omega

theorem burstsReported (seconds : Number) (past : List Act) (a : Act) :
    let s := (ofDelay seconds).play past
    (seconds.compare? (.int 0) = some .gt →
      (s.1.pending = true ↔ since s.2 ≠ []) ∧
      (s.1.act a).2 = if a = .flush ∧ since s.2 ≠ []
        then some ⟨((since s.2).filterMap id).length⟩ else none) ∧
    ((seconds.compare? (.int 0)).any (· != .gt) = true →
      s.1.pending = false ∧
      (s.1.act a).2 = match a with
        | .trigger path => some ⟨path.toList.length⟩
        | _ => none) ∧
    (s.2.map Event.logged).sum + (s.2.map Event.dropped).sum + s.1.changes.length =
      (past.filterMap Act.path?).length := by
  refine ⟨fun later => ?_, fun now => ?_, ?_⟩
  · have start : (ofDelay seconds).Awaits [] :=
      awaitsNothing (by simp [ofDelay, later]) rfl rfl
    have h := playAwaits start past
    refine ⟨by simp [h.pending], ?_⟩
    cases a with
    | trigger path => simp [act, trigger, h.delayed]
    | flush => simp [act, h.flushed]
    | cancel => simp [act]
  · have start : (ofDelay seconds).Prompt := ⟨by simp [ofDelay, now], rfl, rfl⟩
    have h := playPrompt start past
    exact ⟨h.idle, h.reports a⟩
  · rw [playBalanced]
    simp [ofDelay]

theorem minuteBurst :
    let past : List Act := [.trigger none, .trigger (some "b"), .cancel, .trigger (some "a")]
    ((Number.int 60).compare? (.int 0) = some .gt ∧
      (((ofDelay (.int 60)).play past).1.act .flush).2 = some ⟨1⟩) ∧
    ((Number.int 0).compare? (.int 0)).any (· != .gt) = true ∧
      (((ofDelay (.int 0)).play past).1.act (.trigger (some "c"))).2 = some ⟨1⟩ := by
  intro past
  have later := (burstsReported (.int 60) past .flush).1 rfl
  have now := (burstsReported (.int 0) past (.trigger (some "c"))).2.1 rfl
  exact ⟨⟨rfl, later.2⟩, rfl, now.2⟩

end Medley.Debouncer
