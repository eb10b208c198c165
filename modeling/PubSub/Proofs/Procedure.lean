import PubSub.Proofs.Loopback.Census
import PubSub.Proofs.Udp.Node

/-!
Calls as they go, one check and one change after the other. A call that fails leaves behind
whatever it has changed so far. Since every call makes its checks before its first change, it comes
to what the medium makes of it as a whole, or to nothing.
-/

namespace PubSub

/-- Steps that may fail; the state that they have got to stays then. -/
abbrev Steps (S α : Type) := EStateM Fault S α

namespace Steps

variable {S α β : Type}

def check : Except Fault α → Steps S α
  | .ok a => pure a
  | .error f => throw f

/-- What comes of something that is done as a whole or not at all. -/
def whole (s : S) : Except Fault (S × α) → EStateM.Result Fault S α
  | .ok (s', a) => .ok a s'
  | .error f => .error f s

lemma run_check (s : S) (e : Except Fault α) {k : α → Steps S β}
    {F : α → Except Fault (S × β)} (hk : ∀ a, e = .ok a → (k a).run s = whole s (F a)) :
    (check e >>= k).run s = whole s (e >>= F) := by
  cases e with
  | error f => rfl
  | ok a => exact hk a rfl

lemma run_forM (f : α → S → S) (l : List α) (s : S) :
    (l.forM fun a => (modify (f a) : Steps S PUnit)).run s =
      .ok ⟨⟩ (l.foldl (fun s a => f a s) s) := by
  induction l generalizing s with
  | nil => rfl
  | cons a l ih => exact ih (f a s)

/-- What is done as a whole leaves nothing behind when it fails. -/
lemma eq_of_whole {s s' : S} {e : Except Fault (S × α)} {f : Fault}
    (h : whole s e = .error f s') : s' = s := by
  cases e with
  | error f => cases h; rfl
  | ok made => cases h

end Steps

open Steps (check whole)

namespace Loopback

/-! ### Calls in a domain -/

namespace Procedure

def caller (p : Nat) : Steps Domain Participant := do check ((← get).participant p)

def issue (x : Participant) : Steps Domain Nat := do
  modify (·.setParticipant { x with next := x.next + 1 })
  return x.next

def createTopic (p : Nat) (name : String) (type : SampleType) : Steps Domain Topic := do
  let x ← caller p
  check (x.checkAlive .topic)
  if name = "" then throw (.creation .topic "topic name is empty")
  return ⟨name, type.name, x.id⟩

def createGroup (p : Nat) (kind : EntityKind) : Steps Domain Group := do
  let x ← caller p
  check (x.checkAlive kind)
  let number ← issue x
  return ⟨x.id, number⟩

/-- A new writer is put in place, meets one reader after the other, and is listed. -/
def enterWriter (x : Writer) : Steps Domain Unit := do
  modify fun d => { d with writers := d.writers.insertLast x.guid x }
  ((← get).listedOf .reader x.key).forM fun e => modify (·.meet x.guid x.qos e.guid e.qos)
  modify (·.enlist x.key ⟨x.guid, .writer, x.qos⟩)

def enterReader (y : Reader) : Steps Domain Unit := do
  modify fun d => { d with readers := d.readers.insertLast y.guid y }
  ((← get).listedOf .writer y.key).forM fun e => modify (·.meet e.guid e.qos y.guid y.qos)
  modify (·.enlist y.key ⟨y.guid, .reader, y.qos⟩)

def createEndpoint (p : Nat) (kind : EndpointKind) (g : Group) (t : Topic) (type : SampleType)
    (q : Qos) : Steps Domain Guid := do
  let x ← caller p
  check (x.checkAlive kind.entity)
  if g.participant ≠ x.id then throw (Participant.foreignGroup kind)
  check (x.checkTopic t type)
  check (Participant.checkQos q)
  let number ← issue x
  match kind with
  | .writer => enterWriter (.new ⟨x.id, number⟩ t.name type q)
  | .reader => enterReader (.new ⟨x.id, number⟩ t.name type q)
  return ⟨x.id, number⟩

/-- A change goes into the history, the acknowledgment bit goes off if something is pending then,
and what was made for the readers is queued. -/
def publish (w : Guid) (x : Writer) (made : WriterHistory × List Outgoing) :
    Steps Domain Unit := do
  modify (·.adjustWriter w fun _ => { x with history := made.1 })
  unless made.1.allAcknowledged do
    modify (·.adjustWriter w fun _ => { x with history := made.1 }.clear .acknowledged)
  modify (·.submit w made.2)

def write (w : Guid) (v : Value) : Steps Domain Handle := do
  let x ← check ((← get).openWriter w)
  publish w x (x.history.write v.key v.payload)
  return v.key.handle

def dispose (w : Guid) (v : Value) (handle : Handle) : Steps Domain Unit := do
  let x ← check ((← get).openWriter w)
  if handle ≠ 0 ∧ handle ≠ v.key.handle then
    throw (WriterHistory.foreignHandle v.key handle)
  publish w x (x.history.addChange v.key .disposed none)

variable {d : Domain}

lemma run_createTopic (d : Domain) (p : Nat) (name : String) (type : SampleType) :
    (createTopic p name type).run d =
      whole d (d.participant p >>= fun x => x.createTopic name type >>= fun t => pure (d, t)) := by
  refine Steps.run_check d _ fun x _ => ?_
  rw [Participant.createTopic, bind_assoc]
  refine Steps.run_check d _ fun _ _ => ?_
  by_cases hname : name = ""
  · simp only [hname, if_true]
    rfl
  · simp only [hname, if_false]
    rfl

lemma run_createGroup (d : Domain) (p : Nat) (kind : EntityKind) :
    (createGroup p kind).run d = whole d (d.createGroup p kind) := by
  refine Steps.run_check d _ fun x _ => ?_
  rw [Participant.createGroup, bind_assoc]
  exact Steps.run_check d _ fun _ _ => rfl

lemma run_enterWriter (d : Domain) (x : Writer) :
    (enterWriter x).run d = .ok () (d.addWriter x) := by
  let d₀ : Domain := { d with writers := d.writers.insertLast x.guid x }
  have hmeet := Steps.run_forM (fun (e : Entry) (d : Domain) => d.meet x.guid x.qos e.guid e.qos)
    (d₀.listedOf .reader x.key) d₀
  change EStateM.run (_ >>= _) d₀ = _
  rw [EStateM.run_bind, hmeet]
  rfl

lemma run_enterReader (d : Domain) (y : Reader) :
    (enterReader y).run d = .ok () (d.addReader y) := by
  let d₀ : Domain := { d with readers := d.readers.insertLast y.guid y }
  have hmeet := Steps.run_forM (fun (e : Entry) (d : Domain) => d.meet e.guid e.qos y.guid y.qos)
    (d₀.listedOf .writer y.key) d₀
  change EStateM.run (_ >>= _) d₀ = _
  rw [EStateM.run_bind, hmeet]
  rfl

lemma run_createEndpoint (d : Domain) (p : Nat) (kind : EndpointKind) (g : Group) (t : Topic)
    (type : SampleType) (q : Qos) :
    (createEndpoint p kind g t type q).run d = whole d (d.createEndpoint p kind g t type q) := by
  refine Steps.run_check d _ fun x _ => ?_
  rw [Participant.createEndpoint, bind_assoc]
  refine Steps.run_check d _ fun _ _ => ?_
  by_cases hg : g.participant ≠ x.id
  · rw [if_pos hg, if_pos hg]
    rfl
  · rw [if_neg hg, if_neg hg]
    simp only [bind_assoc]
    refine Steps.run_check d _ fun _ _ => Steps.run_check d _ fun _ _ => ?_
    cases kind with
    | writer =>
      change EStateM.run (_ >>= _) (d.setParticipant { x with next := x.next + 1 }) = _
      rw [EStateM.run_bind, run_enterWriter]
      rfl
    | reader =>
      change EStateM.run (_ >>= _) (d.setParticipant { x with next := x.next + 1 }) = _
      rw [EStateM.run_bind, run_enterReader]
      rfl

lemma run_publish (d : Domain) (w : Guid) (x : Writer) (made : WriterHistory × List Outgoing) :
    (publish w x made).run d =
      .ok () ((d.adjustWriter w fun _ => { x with history := made.1 }.notePending).submit w
        made.2) := by
  have htwice : ∀ y z : Writer, (d.adjustWriter w fun _ => y).adjustWriter w (fun _ => z) =
      d.adjustWriter w fun _ => z := fun y z => by
    simp only [Domain.adjustWriter, Table.adjust_adjust]
  rw [publish, Writer.notePending]
  by_cases hdone : made.1.allAcknowledged = true
  · simp only [hdone, if_true]
    rfl
  · simp only [hdone]
    exact congrArg (fun d : Domain => EStateM.Result.ok () (d.submit w made.2)) (htwice _ _)

lemma run_write (d : Domain) (w : Guid) (v : Value) :
    (write w v).run d = whole d (d.write w v) := by
  rw [Domain.write, Domain.append, bind_assoc]
  refine Steps.run_check d _ fun x _ => ?_
  rw [EStateM.run_bind, run_publish]
  rfl

lemma run_dispose (d : Domain) (w : Guid) (v : Value) (handle : Handle) :
    (dispose w v handle).run d = whole d (d.dispose w v handle >>= fun d => pure (d, ())) := by
  rw [Domain.dispose, Domain.appendDisposal, bind_assoc, bind_assoc]
  refine Steps.run_check d _ fun x _ => ?_
  rw [Writer.dispose, WriterHistory.dispose]
  by_cases hforeign : handle ≠ 0 ∧ handle ≠ v.key.handle
  · rw [if_pos hforeign, if_pos hforeign]
    rfl
  · rw [if_neg hforeign, if_neg hforeign, run_publish]
    rfl

end Procedure

/-! ### Calls in a world -/

namespace World

/-- Takes steps in the domain of a participant, which becomes what they make of it. -/
def inDomain {α : Type} (p : Nat) (absent : Fault) (x : Steps Domain α) : Steps World α := fun w =>
  match w.domainOf? p with
  | some d =>
    match x.run d with
    | .ok a d => .ok a (w.adjust p fun _ => d)
    | .error f d => .error f (w.adjust p fun _ => d)
  | none => .error absent w

def enroll (s : Scope) (domain : Nat) (name : String) : Steps World Nat := do
  check (Config.checkDomain domain)
  let number := (← get).nextParticipant
  modify ({ · with nextParticipant := number + 1 })
  modify fun w => { w with domains := w.enter s domain (idBase + number) name }
  return idBase + number

lemma adjust_self {w : World} {p : Nat} {d : Domain} (h : w.domainOf? p = some d)
    (honce : w.Settled p) : (w.adjust p fun _ => d) = w := by
  have hid : w.adjust p id = w := by
    rw [adjust]
    simp only [id_eq, ite_self, List.map_id']
  exact (adjust_once h honce id).symm.trans hid

lemma run_enroll (w : World) (s : Scope) (domain : Nat) (name : String) :
    (enroll s domain name).run w = whole w (w.join s domain name) :=
  Steps.run_check w _ fun _ _ => rfl

/-- What comes to the whole or nothing in a domain does so in the world. -/
lemma run_inDomain {α : Type} {w : World} {p : Nat} (hp : w.Settled p) (absent : Fault)
    {x : Steps Domain α} {F : Domain → Except Fault (Domain × α)}
    (hx : ∀ d, x.run d = whole d (F d)) :
    (inDomain p absent x).run w = whole w (w.within p absent F) := by
  rw [EStateM.run, inDomain, within]
  cases hd : w.domainOf? p with
  | none => rfl
  | some d =>
    simp only [hx]
    cases F d with
    | ok made => rfl
    | error f => exact congrArg (EStateM.Result.error f) (adjust_self hd hp)

lemma createTopic_eq {w : World} {p : Nat} (hp : w.Settled p) (name : String) (type : SampleType) :
    (Middleware.createTopic w p name type >>= fun t => pure (w, t)) =
      w.within p (.deleted .participant) fun d =>
        d.participant p >>= fun x => x.createTopic name type >>= fun t => pure (d, t) := by
  rw [Middleware.createTopic, within]
  cases hd : w.domainOf? p with
  | none =>
    rw [show Middleware.participant? w p = none by simp [Middleware.participant?, hd]]
    rfl
  | some d =>
    have hself := adjust_self hd hp
    rw [show Middleware.participant? w p = d.participants.get? p by
      simp [Middleware.participant?, hd]]
    simp only [Domain.participant]
    cases d.participants.get? p with
    | none => rfl
    | some x =>
      change (x.createTopic name type >>= _) = (x.createTopic name type >>= _) >>= _
      cases x.createTopic name type with
      | error f => rfl
      | ok t => exact congrArg (fun w => Except.ok (w, t)) hself.symm

end World

/-- The calls that create something, and those that change something through a writer. -/
inductive Call where
  | createParticipant (s : Scope) (domain : Nat) (name : String)
  | createTopic (p : Nat) (name : String) (type : SampleType)
  | createGroup (p : Nat) (kind : EntityKind)
  | createEndpoint (p : Nat) (kind : EndpointKind) (g : Group) (t : Topic) (type : SampleType)
      (q : Qos)
  | write (w : Guid) (v : Value)
  | dispose (w : Guid) (v : Value) (handle : Handle)

namespace Call

def Answer : Call → Type
  | createParticipant .. => Nat
  | createTopic .. => Topic
  | createGroup .. => Group
  | createEndpoint .. => Guid
  | write .. => Handle
  | dispose .. => Unit

def answer (w : World) : (c : Call) → Except Fault (World × c.Answer)
  | createParticipant s domain name => w.join s domain name
  | createTopic p name type => do return (w, ← Middleware.createTopic w p name type)
  | createGroup p kind => Middleware.createGroup w p kind
  | createEndpoint p kind g t type q => Middleware.createEndpoint w p kind g t type q
  | write g v => Middleware.write w g v
  | dispose g v handle => do return (← Middleware.dispose w g v handle, ())

def steps : (c : Call) → Steps World c.Answer
  | createParticipant s domain name => World.enroll s domain name
  | createTopic p name type =>
    World.inDomain p (.deleted .participant) (Procedure.createTopic p name type)
  | createGroup p kind => World.inDomain p (.deleted .participant) (Procedure.createGroup p kind)
  | createEndpoint p kind g t type q =>
    World.inDomain p (.deleted .participant) (Procedure.createEndpoint p kind g t type q)
  | write g v => World.inDomain g.participant (.deleted .writer) (Procedure.write g v)
  | dispose g v handle =>
    World.inDomain g.participant (.deleted .writer) (Procedure.dispose g v handle)

/-- **A call comes to what the medium makes of it**, or to nothing. -/
theorem run_steps {w : World} (hw : ∀ p, w.Settled p) (c : Call) :
    c.steps.run w = whole w (c.answer w) := by
  cases c with
  | createParticipant s domain name => exact World.run_enroll w s domain name
  | createTopic p name type =>
    have htopic := World.createTopic_eq (hw p) name type
    exact (World.run_inDomain (hw p) _ fun d => Procedure.run_createTopic d p name type).trans
      (congrArg (whole w) htopic.symm)
  | createGroup p kind =>
    exact World.run_inDomain (hw p) _ fun d => Procedure.run_createGroup d p kind
  | createEndpoint p kind g t type q =>
    exact World.run_inDomain (hw p) _ fun d => Procedure.run_createEndpoint d p kind g t type q
  | write g v => exact World.run_inDomain (hw g.participant) _ fun d => Procedure.run_write d g v
  | dispose g v handle =>
    refine (World.run_inDomain (hw g.participant) _ fun d =>
      Procedure.run_dispose d g v handle).trans ?_
    change whole w (World.within ..) = whole w (World.within .. >>= _ >>= _)
    cases w.within g.participant (.deleted .writer) fun d =>
      d.dispose g v handle >>= fun d => pure (d, ()) <;> rfl

end Call

end Loopback

namespace Udp

/-! ### Calls on a participant of the network -/

namespace Procedure

/-- A participant, and what it has sent so far. -/
abbrev Sending := Node × List Dispatch

def publish (x : LinkedWriter) (made : WriterHistory × List Outgoing) : Steps Sending Unit := do
  let y : Writer := { x.writer with history := made.1 }
  modify fun s => (s.1.adjustWriter y.guid fun _ => { x with writer := y }, s.2)
  unless made.1.allAcknowledged do
    modify fun s =>
      (s.1.adjustWriter y.guid fun _ => { x with writer := y.clear .acknowledged }, s.2)
  modify fun s => (s.1, s.2 ++ LinkedWriter.address { x with writer := y } made.2)

def write (w : Guid) (v : Value) : Steps Sending Handle := do
  let x ← check ((← get).1.openWriter w)
  check (Node.checkPayload v.payload)
  publish x (x.writer.history.write v.key v.payload)
  return v.key.handle

def dispose (w : Guid) (v : Value) (handle : Handle) : Steps Sending Unit := do
  let x ← check ((← get).1.openWriter w)
  if handle ≠ 0 ∧ handle ≠ v.key.handle then
    throw (WriterHistory.foreignHandle v.key handle)
  publish x (x.writer.history.addChange v.key .disposed none)

lemma run_publish (s : Sending) (x : LinkedWriter) (made : WriterHistory × List Outgoing) :
    (publish x made).run s =
      let acted := s.1.ship x { x.writer with history := made.1 }.notePending made.2
      .ok () (acted.1, s.2 ++ acted.2) := by
  have htwice : ∀ (n : Node) (w : Guid) (y z : LinkedWriter),
      (n.adjustWriter w fun _ => y).adjustWriter w (fun _ => z) = n.adjustWriter w fun _ => z :=
    fun n w y z => by simp only [Node.adjustWriter, Table.adjust_adjust]
  simp only [publish, Node.ship, Writer.notePending]
  by_cases hdone : made.1.allAcknowledged = true
  · simp only [hdone, if_true]
    rfl
  · simp only [hdone]
    exact congrArg (fun n : Node => EStateM.Result.ok () (n, s.2 ++ _)) (htwice s.1 _ _ _)

end Procedure

inductive Call where
  | write (w : Guid) (v : Value)
  | dispose (w : Guid) (v : Value) (handle : Handle)

namespace Call

open Procedure (Sending)

def Answer : Call → Type
  | write .. => Handle
  | dispose .. => Unit

def answer (s : Sending) : (c : Call) → Except Fault (Sending × c.Answer)
  | write w v => do
    let (acted, handle) ← s.1.write w v
    return ((acted.1, s.2 ++ acted.2), handle)
  | dispose w v handle => do
    let acted ← s.1.dispose w v handle
    return ((acted.1, s.2 ++ acted.2), ())

def steps : (c : Call) → Steps Sending c.Answer
  | write w v => Procedure.write w v
  | dispose w v handle => Procedure.dispose w v handle

/-- **A call comes to what the participant makes of it**, or to nothing. -/
theorem run_steps (s : Sending) (c : Call) : c.steps.run s = whole s (c.answer s) := by
  cases c with
  | write w v =>
    rw [answer, Node.write]
    simp only [bind_assoc]
    refine Steps.run_check s _ fun x _ => Steps.run_check s _ fun _ _ => ?_
    rw [EStateM.run_bind, Procedure.run_publish]
    rfl
  | dispose w v handle =>
    rw [answer, Node.dispose]
    simp only [bind_assoc]
    refine Steps.run_check s _ fun x _ => ?_
    rw [Writer.dispose, WriterHistory.dispose]
    by_cases hforeign : handle ≠ 0 ∧ handle ≠ v.key.handle
    · rw [if_pos hforeign, if_pos hforeign]
      rfl
    · rw [if_neg hforeign, if_neg hforeign, Procedure.run_publish]
      rfl

end Call

end Udp

end PubSub
