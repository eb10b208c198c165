import PubSub.Proofs.Procedure

/-!
What a failure leaves behind: nothing. A call that creates something in a world, and one that
writes or disposes of something on either medium, fails only before its first change. On an open
writer of a domain a write never fails, and on the network it does if the payload is too long.
-/

namespace PubSub

open Steps (whole)

lemma isOk_bind_pure {α β : Type} (e : Except Fault α) (f : α → β) :
    (e >>= fun a => pure (f a)).isOk = e.isOk := by
  cases e <;> rfl

/-- An instance is disposed of unless the handle that is named is that of another one. -/
lemma Writer.isOk_dispose (x : Writer) (v : Value) (handle : Handle) :
    (x.dispose v handle).isOk = false ↔ handle ≠ 0 ∧ handle ≠ v.key.handle := by
  rw [Writer.dispose, WriterHistory.dispose]
  split_ifs with hforeign
  · exact iff_of_true rfl hforeign
  · exact iff_of_false (fun h => by cases h) hforeign

namespace Loopback

variable {w : World} {d : Domain} {p : Nat} {g : Guid} {x : Writer}

lemma World.isOk_within {α : Type} (hd : w.domainOf? p = some d) (absent : Fault)
    (F : Domain → Except Fault (Domain × α)) : (w.within p absent F).isOk = (F d).isOk := by
  rw [World.within, hd]
  simp only
  cases F d <;> rfl

lemma Domain.openWriter_of_open (hx : d.writers.get? g = some x) (ho : x.isOpen = true) :
    d.openWriter g = .ok x := by
  rw [Domain.openWriter, hx]
  simp only [Writer.checkOpen, ho, if_true]
  rfl

/-- An open writer of a world is one of the domain of its participant. -/
lemma World.exists_of_open (hw : (Middleware.writer? w g).any (·.isOpen) = true) :
    ∃ d x, w.domainOf? g.participant = some d ∧ d.openWriter g = .ok x := by
  cases hd : w.domainOf? g.participant with
  | none => simp [Middleware.writer?, hd] at hw
  | some d =>
    cases hx : d.writers.get? g with
    | none => simp [Middleware.writer?, hd, hx] at hw
    | some x =>
      have ho : x.isOpen = true := by simpa [Middleware.writer?, hd, hx] using hw
      exact ⟨d, x, rfl, Domain.openWriter_of_open hx ho⟩

lemma World.isOk_write (hw : (Middleware.writer? w g).any (·.isOpen) = true) (v : Value) :
    (Middleware.write w g v).isOk = true := by
  obtain ⟨d, x, hd, hx⟩ := exists_of_open hw
  refine (isOk_within hd _ _).trans ?_
  rw [Domain.write, Domain.append, hx]
  rfl

lemma World.isOk_dispose (hw : (Middleware.writer? w g).any (·.isOpen) = true) (v : Value)
    (handle : Handle) :
    (Middleware.dispose w g v handle).isOk = false ↔ handle ≠ 0 ∧ handle ≠ v.key.handle := by
  obtain ⟨d, x, hd, hx⟩ := exists_of_open hw
  have hdone : (Middleware.dispose w g v handle).isOk = (x.dispose v handle).isOk :=
    calc (Middleware.dispose w g v handle).isOk
      _ = (w.within g.participant (.deleted .writer) fun d =>
            d.dispose g v handle >>= fun d => pure (d, ())).isOk := isOk_bind_pure _ _
      _ = (d.dispose g v handle >>= fun d => pure (d, ())).isOk := isOk_within hd _ _
      _ = (d.dispose g v handle).isOk := isOk_bind_pure _ _
      _ = (x.dispose v handle).isOk := by
        rw [Domain.dispose, Domain.appendDisposal, hx]
        change (x.dispose v handle >>= _ >>= _).isOk = _
        cases x.dispose v handle <;> rfl
  rw [hdone, x.isOk_dispose]

end Loopback

namespace Udp.Node

variable {n : Node} {g : Guid}

lemma exists_of_open (hn : (n.writers.get? g).any (·.writer.isOpen) = true) :
    ∃ x, n.openWriter g = .ok x := by
  cases hx : n.writers.get? g with
  | none => simp [hx] at hn
  | some x => exact ⟨x, openWriter_of_open hx (by simpa [hx] using hn)⟩

lemma isOk_write (hn : (n.writers.get? g).any (·.writer.isOpen) = true) (v : Value) :
    (n.write g v).isOk = false ↔ Wire.maxBytes < v.payload.text.utf8ByteSize := by
  obtain ⟨x, hx⟩ := exists_of_open hn
  have hdone : (n.write g v).isOk = (checkPayload v.payload).isOk := by
    rw [write, hx]
    exact isOk_bind_pure _ _
  rw [hdone, checkPayload]
  split_ifs with hlong
  · exact iff_of_true rfl hlong
  · exact iff_of_false (fun h => by cases h) hlong

lemma isOk_dispose (hn : (n.writers.get? g).any (·.writer.isOpen) = true) (v : Value)
    (handle : Handle) :
    (n.dispose g v handle).isOk = false ↔ handle ≠ 0 ∧ handle ≠ v.key.handle := by
  obtain ⟨x, hx⟩ := exists_of_open hn
  have hdone : (n.dispose g v handle).isOk = (x.writer.dispose v handle).isOk := by
    rw [dispose, hx]
    exact isOk_bind_pure _ _
  rw [hdone, x.writer.isOk_dispose]

end Udp.Node

/-- **A call that fails leaves everything as it was**: in whatever world it is made, and on whatever
participant of the network, for it comes to what the medium makes of it as a whole, or to nothing. A
write on an open writer of a domain never fails, and on the network it fails if the payload is
longer than a datagram may be; a disposal fails if the handle is that of another instance. -/
theorem failing_calls_atomic :
    (∀ (as : List Loopback.Deed) (c : Loopback.Call),
      let w := Loopback.World.new.after as
      c.steps.run w = whole w (c.answer w) ∧
        ∀ f w', c.steps.run w = .error f w' → w' = w) ∧
      (∀ (s : Udp.Procedure.Sending) (c : Udp.Call), c.steps.run s = whole s (c.answer s) ∧
        ∀ f s', c.steps.run s = .error f s' → s' = s) ∧
      (∀ (w : Loopback.World) g, (Middleware.writer? w g).any (·.isOpen) = true → ∀ v,
        (Middleware.write w g v).isOk = true ∧ ∀ handle,
          ((Middleware.dispose w g v handle).isOk = false ↔
            handle ≠ 0 ∧ handle ≠ v.key.handle)) ∧
      ∀ (n : Udp.Node) g, (n.writers.get? g).any (·.writer.isOpen) = true → ∀ v,
        ((n.write g v).isOk = false ↔ 64000 < v.payload.text.utf8ByteSize) ∧ ∀ handle,
          ((n.dispose g v handle).isOk = false ↔ handle ≠ 0 ∧ handle ≠ v.key.handle) := by
  refine ⟨fun as c => ?_, fun s c => ?_, fun w g hw v => ?_, fun n g hn v => ?_⟩
  · have hrun := c.run_steps (Loopback.World.Sound.new.after as).settled
    exact ⟨hrun, fun f w' h => Steps.eq_of_whole (hrun.symm.trans h)⟩
  · have hrun := c.run_steps s
    exact ⟨hrun, fun f s' h => Steps.eq_of_whole (hrun.symm.trans h)⟩
  · exact ⟨Loopback.World.isOk_write hw v, Loopback.World.isOk_dispose hw v⟩
  · exact ⟨Udp.Node.isOk_write hn v, Udp.Node.isOk_dispose hn v⟩

/-- A writer has written a sample; a disposal that names another instance fails, on both media, and
leaves the world as it was. -/
theorem failing_calls_atomic_foreign :
    let p := Loopback.World.idBase + 1
    let v : Value := .hello ⟨1, "a"⟩
    let as : List Loopback.Deed :=
      [.ask ⟨0, .zero⟩ (.join 0 "p"), .ask ⟨0, .zero⟩ (.createGroup p .writer),
        .ask ⟨0, .zero⟩ (.createEndpoint p .writer ⟨p, 1⟩ ⟨"t", SampleType.hello.name, p⟩ .hello
          .reliable),
        .ask ⟨0, .zero⟩ (.write ⟨p, 2⟩ v)]
    let w := Loopback.World.new.after as
    let n : Udp.Node := { Udp.Node.new 1 0 "p" 7400 .default with
      writers := [(⟨1, 2⟩, ⟨.new ⟨1, 2⟩ "t" .hello .reliable, [], []⟩)] }
    (Middleware.writer? w ⟨p, 2⟩).any (·.isOpen) = true ∧
      (Middleware.dispose w ⟨p, 2⟩ v 1).isOk = false ∧
      (∃ f, (Loopback.Call.dispose ⟨p, 2⟩ v 1).steps.run w = .error f w) ∧
      (n.writers.get? ⟨1, 2⟩).any (·.writer.isOpen) = true ∧
      (n.dispose ⟨1, 2⟩ v 1).isOk = false := by
  intro p v as w n
  have hw : (Middleware.writer? w ⟨p, 2⟩).any (·.isOpen) = true := by decide +kernel
  have hn : (n.writers.get? ⟨1, 2⟩).any (·.writer.isOpen) = true := by decide +kernel
  have hforeign : (1 : Handle) ≠ 0 ∧ 1 ≠ v.key.handle := by decide +kernel
  obtain ⟨hatomic, -, hworld, hnode⟩ := failing_calls_atomic
  have hfails := ((hworld w _ hw v).2 1).mpr hforeign
  refine ⟨hw, hfails, ?_, hn, ((hnode n _ hn v).2 1).mpr hforeign⟩
  have hrun : _ = whole w _ := (hatomic as (.dispose ⟨p, 2⟩ v 1)).1
  cases hanswer : Middleware.dispose w ⟨p, 2⟩ v 1 with
  | ok w' =>
    rw [hanswer] at hfails
    cases hfails
  | error f => exact ⟨f, hrun.trans (congrArg (fun e => whole w (e >>= _)) hanswer)⟩

end PubSub
