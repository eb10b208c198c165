import PubSub.Condition
import PubSub.Fault

/-!
Wait sets and the conditions attached to them. A wait set counts, as its epoch, the alerts of
its conditions: who has read the epoch before looking at the conditions cannot miss an alert
that comes in between, since the epoch has moved on then.
-/

namespace PubSub

/-- Whom a hook on a condition alerts. -/
inductive Listener where
  | waitSet (w : Nat)
  | signal (s : Nat)
deriving DecidableEq, Inhabited

/-- A listener registered on a condition, under the identity of its registration. -/
structure Hook where
  id : Nat
  listener : Listener
deriving DecidableEq, Inhabited

/-- A condition and those registered on it. -/
structure Post where
  condition : Condition
  hooks : List Hook
deriving DecidableEq, Inhabited

/-- An attached condition, with the identity of the hook that it bears for the wait set. -/
structure Attachment where
  condition : Nat
  hook : Nat
deriving DecidableEq, Inhabited

structure WaitSet where
  epoch : Nat
  attached : List Attachment
deriving DecidableEq, Inhabited

/-- A listener that counts its alerts, registered under an identity that it chose. -/
structure Signal where
  id : Nat
  hits : Nat
deriving DecidableEq, Inhabited

/-- Conditions, wait sets and signals, each under a number of its own. -/
structure Board where
  posts : Table Nat Post
  waitSets : Table Nat WaitSet
  signals : Table Nat Signal
  nextHook : Nat
deriving DecidableEq, Inhabited

namespace Board

def empty : Board := ⟨[], [], [], 1⟩

/-- Identities that signals choose lie above all identities that wait sets are given. -/
def chosenBase : Nat := 1 <<< 40

/-- One alert for one listener. -/
def alert (b : Board) : Listener → Board
  | .waitSet w =>
    { b with waitSets := b.waitSets.adjust w fun s => { s with epoch := s.epoch + 1 } }
  | .signal s => { b with signals := b.signals.adjust s fun s => { s with hits := s.hits + 1 } }

def alertAll (b : Board) (hooks : List Hook) : Board :=
  hooks.foldl (fun b h => b.alert h.listener) b

def addCondition (b : Board) (c : Nat) (x : Condition) : Board :=
  { b with posts := b.posts.put (· < ·) c ⟨x, []⟩ }

def addWaitSet (b : Board) (w : Nat) : Board :=
  { b with waitSets := b.waitSets.put (· < ·) w ⟨0, []⟩ }

def addSignal (b : Board) (s id : Nat) : Board :=
  { b with signals := b.signals.put (· < ·) s ⟨chosenBase + id, 0⟩ }

def condition? (b : Board) (c : Nat) : Option Condition := (b.posts.get? c).map (·.condition)

/-- Acts on a condition; its hooks are called if it alerts. -/
def act (b : Board) (c : Nat) (a : Condition.Action) : Board :=
  match b.posts.get? c with
  | none => b
  | some p =>
    let x := p.condition.act a
    let b := { b with posts := b.posts.adjust c ({ · with condition := x }) }
    if x.alerts = p.condition.alerts then b else b.alertAll p.hooks

/-- Registers a listener, which is alerted at once if the condition is triggered. -/
def register (b : Board) (c : Nat) (h : Hook) : Board :=
  match b.posts.get? c with
  | none => b
  | some p =>
    let b := { b with posts := b.posts.adjust c fun p => { p with hooks := p.hooks ++ [h] } }
    if p.condition.triggered then b.alert h.listener else b

/-- Takes every hook of that identity off a condition. -/
def unregister (b : Board) (c id : Nat) : Board :=
  { b with posts := b.posts.adjust c fun p => { p with hooks := p.hooks.filter (·.id ≠ id) } }

def registerSignal (b : Board) (c s : Nat) : Board :=
  match b.signals.get? s with
  | none => b
  | some x => b.register c ⟨x.id, .signal s⟩

def unregisterSignal (b : Board) (c id : Nat) : Board := b.unregister c (chosenBase + id)

/-- A signal goes away, and its hooks with it. -/
def dropSignal (b : Board) (s : Nat) : Board :=
  { b with
    signals := b.signals.erase s
    posts := b.posts.map fun e =>
      (e.1, { e.2 with hooks := e.2.hooks.filter (·.listener ≠ .signal s) }) }

def attachments (b : Board) (w : Nat) : List Attachment :=
  ((b.waitSets.get? w).map (·.attached)).getD []

def setAttachments (b : Board) (w : Nat) (as : List Attachment) : Board :=
  { b with waitSets := b.waitSets.adjust w ({ · with attached := as }) }

/-- Attaches a condition under the name that messages know it by. -/
def attach (b : Board) (w c : Nat) (name : String) : Except Fault Board :=
  if (b.attachments w).any (·.condition = c) then
    .error (.parameter s!"condition {name} already attached")
  else
    let hook := b.nextHook
    let b := { b with nextHook := hook + 1 }.register c ⟨hook, .waitSet w⟩
    .ok (b.setAttachments w (b.attachments w ++ [⟨c, hook⟩]))

def detach (b : Board) (w c : Nat) (name : String) : Except Fault Board :=
  match (b.attachments w).find? (·.condition = c) with
  | none => .error (.parameter s!"condition {name} not attached")
  | some a =>
    .ok ((b.unregister c a.hook).setAttachments w
      ((b.attachments w).filter (·.condition ≠ c)))

/-- A wait set goes away, and its hooks with it. -/
def dropWaitSet (b : Board) (w : Nat) : Board :=
  let b := (b.attachments w).foldl (fun b a => b.unregister a.condition a.hook) b
  { b with waitSets := b.waitSets.erase w }

/-- The attached conditions that are triggered, in the order in which they were attached. -/
def triggered (b : Board) (w : Nat) : List Nat :=
  ((b.attachments w).map (·.condition)).filter fun c =>
    ((b.condition? c).map (·.triggered)).getD false

def epoch (b : Board) (w : Nat) : Nat := ((b.waitSets.get? w).map (·.epoch)).getD 0

/-- The counter in which a wait set keeps its epoch. It starts over when it is full. -/
def clock (b : Board) (w : Nat) : UInt64 := .ofNat (b.epoch w)

/-- What a wait returns that begins on this board, if the board becomes `later` before its time
is over: at once what is triggered already, else what is triggered then. -/
def wait (b : Board) (w : Nat) (later : Option Board) : List Nat :=
  match b.triggered w, later with
  | [], some b' => b'.triggered w
  | cs, _ => cs

/-- Whether a wait for an epoch other than the given one ends before its time is over. -/
def waitSince (b : Board) (w epoch : Nat) (later : Option Board) : Bool :=
  b.clock w ≠ .ofNat epoch || (later.map fun b' => decide (b'.clock w ≠ .ofNat epoch)).getD false

end Board

end PubSub
