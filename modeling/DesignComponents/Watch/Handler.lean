import DesignComponents.Host.Path
import DesignComponents.Number.Basic

/-!
Changes of watched files. Every change starts a timer and stops the one before, so a timer expires
only when nothing has changed for a while.
-/

namespace DesignComponents.Watch

structure Timer where
  interval : Number
  pending : Bool
  deriving DecidableEq, Repr

structure Event where
  path : String
  isDirectory : Bool
  deriving DecidableEq, Repr

structure Handler where
  watched : List String
  debounce : Number
  lastPath : Option String
  held : Option Nat
  /-- All timers started so far. -/
  timers : List Timer
  /-- The paths that were last at each expiry. -/
  calls : List (Option String)
  deriving Repr

namespace Handler

def start (watched : List String) (debounce : Number) : Handler :=
  ⟨watched, debounce, none, none, [], []⟩

/-- Stop a timer; one that has expired stays as it is. -/
def stopTimer (held : Option Nat) (timers : List Timer) : List Timer :=
  match held with
  | some i => timers.modify i fun t => { t with pending := false }
  | none => timers

def concerns (h : Handler) (e : Event) : Bool :=
  !e.isDirectory && h.watched.contains (Path.baseName e.path)

def notice (h : Handler) (e : Event) : Handler :=
  if h.concerns e then
    { h with
      lastPath := some e.path
      held := some h.timers.length
      timers := stopTimer h.held h.timers ++ [⟨h.debounce, true⟩] }
  else h

/-- All pending timers expire, each with a call. -/
def elapse (h : Handler) : Handler :=
  let due := h.timers.countP Timer.pending
  { h with
    timers := h.timers.map fun t => { t with pending := false }
    calls := h.calls ++ List.replicate due h.lastPath }

def cancel (h : Handler) : Handler :=
  { h with timers := stopTimer h.held h.timers, held := none }

@[simp] theorem notice_of_not_concerns {h : Handler} {e : Event} (hc : h.concerns e = false) :
    h.notice e = h := by simp [notice, hc]

@[simp] theorem concerns_directory (h : Handler) (path : String) :
    h.concerns ⟨path, true⟩ = false := rfl

end Handler

/-- How a call that was made in the background ended. -/
inductive Ending
  | cancelled
  | finished
  | failed (message : String)
  deriving DecidableEq, Repr

def changedText (path : Option String) : String :=
  "\n🔄 Changed: " ++ path.getD "None"

def Ending.report : Ending → List String
  | .failed message => ["   ⚠️  Dump failed: " ++ message]
  | _ => []

def callTexts (path : Option String) (ending : Ending) : List String :=
  changedText path :: ending.report

/-- What happens to a handler: a file is made or changed, time passes, or the watch ends. -/
inductive Step
  | event (e : Event)
  | elapse
  | cancel
  deriving DecidableEq, Repr

namespace Handler

/-- The calls that an expiry adds, with their numbers from one on. -/
def newCalls (h : Handler) : List (Option String × Nat) :=
  (h.elapse.calls.drop h.calls.length).zipIdx (h.calls.length + 1)

/-- The handler after a step and the lines printed meanwhile, where `ending n` is how the call
with the number `n` ends. -/
def step (ending : Nat → Ending) (h : Handler) : Step → Handler × List String
  | .event e => (h.notice e, [])
  | .elapse => (h.elapse, h.newCalls.flatMap fun c => callTexts c.1 (ending c.2))
  | .cancel => (h.cancel, [])

def run (ending : Nat → Ending) (h : Handler) : List Step → Handler × List String
  | [] => (h, [])
  | s :: ss =>
    let after := h.step ending s
    let finish := run ending after.1 ss
    (finish.1, after.2 ++ finish.2)

end Handler

end DesignComponents.Watch
