import Mathlib.Tactic.Lemma
import Mathlib.Tactic.SplitIfs
import PubSub.Cli.Flags

/-!
Where the settings of a run come from. Each of them is what a flag says, or else what a variable
holds, or else the default. The variables are checked once before the flags are looked at and once
more together with them, so that a value which a flag replaces is checked all the same.
-/

namespace PubSub

namespace Config

variable {c : Config} {lookup : String → Option String} {bound : Nat} {name : String}

/-! ### What is checked -/

/-- A timeout that leaves some time, and is no mistake. -/
def Timely (t : Span) : Prop := t ≠ .zero ∧ t ≤ maxTimeout

lemma bind_ok_iff {α β : Type} {x : Except Fault α} {f : α → Except Fault β} {b : β} :
    x >>= f = .ok b ↔ ∃ a, x = .ok a ∧ f a = .ok b := by
  cases x <;> simp [bind, Except.bind]

lemma not_lt_iff {s t : Span} : ¬s < t ↔ t ≤ s := Nat.not_lt

lemma checkDomain_ok_iff {id : Nat} : checkDomain id = .ok () ↔ id ≤ maxDomain := by
  unfold checkDomain
  split_ifs with h
  · simp [Nat.not_le.mpr h]
  · simp [Nat.not_lt.mp h]

lemma checkTimeout_ok_iff {t : Span} : checkTimeout name t = .ok () ↔ Timely t := by
  unfold checkTimeout Timely
  rw [← not_lt_iff]
  split_ifs with hzero hlong
  · simp [hzero]
  · simp [hlong]
  · simp [hzero, hlong]

lemma checkLinger_ok_iff {t : Span} : checkLinger t = .ok () ↔ t ≤ maxTimeout := by
  unfold checkLinger
  rw [← not_lt_iff]
  split_ifs with hlong
  · simp [hlong]
  · simp [hlong]

/-- **Settings pass** if each of them is in its range. -/
lemma validate_ok_iff :
    c.validate = .ok () ↔ c.domain ≤ maxDomain ∧ Timely c.matching ∧ Timely c.acknowledgment ∧
      Timely c.data ∧ c.linger ≤ maxTimeout := by
  have hunit {p : Unit → Prop} : (∃ u, p u) ↔ p () := ⟨fun ⟨(), h⟩ => h, fun h => ⟨(), h⟩⟩
  unfold validate
  simp only [bind_ok_iff, hunit, checkDomain_ok_iff, checkTimeout_ok_iff, checkLinger_ok_iff]

/-! ### Variables -/

def held (lookup : String → Option String) (bound : Nat) (name : String) : Option Nat :=
  (lookup name).bind fun v => Text.natBelow? bound (Text.trim v.toList)

def Legible (lookup : String → Option String) (bound : Nat) (name : String) : Prop :=
  lookup name = none ∨ ∃ n, held lookup bound name = some n

structure Numeric (lookup : String → Option String) : Prop where
  domain : Legible lookup UInt32.size domainVar
  matching : Legible lookup UInt64.size matchVar
  acknowledgment : Legible lookup UInt64.size ackVar
  data : Legible lookup UInt64.size dataVar

/-- A variable that is set takes the place of the old value. -/
lemma override_eq {α : Type} (h : Legible lookup bound name) (old : α) (set : Nat → α) :
    override lookup bound name old set = .ok (((held lookup bound name).map set).getD old) := by
  unfold override
  cases hv : lookup name with
  | none => simp [held, hv]
  | some v =>
    obtain ⟨n, hn⟩ : ∃ n, held lookup bound name = some n := h.resolve_left (by simp [hv])
    have hread : readVar bound name v = .ok n := by
      have htext : Text.natBelow? bound (Text.trim v.toList) = some n := by
        simpa [held, hv] using hn
      rw [readVar, htext]
    rw [hn]
    simp only [hread]
    rfl

def environment (lookup : String → Option String) : Config where
  domain := (held lookup UInt32.size domainVar).getD default.domain
  matching := ((held lookup UInt64.size matchVar).map .ofSecs).getD default.matching
  acknowledgment := ((held lookup UInt64.size ackVar).map .ofSecs).getD default.acknowledgment
  data := ((held lookup UInt64.size dataVar).map .ofSecs).getD default.data
  linger := default.linger

lemma applyOverrides_default (h : Numeric lookup) :
    default.applyOverrides lookup = (do
      (environment lookup).validate
      return environment lookup) := by
  unfold applyOverrides
  rw [override_eq h.domain, override_eq h.matching, override_eq h.acknowledgment,
    override_eq h.data, Option.map_id]
  rfl

end Config

namespace Cli.Flags

open Config (held environment Timely Numeric bind_ok_iff)

variable {f : Flags} {c : Config} {lookup : String → Option String}

/-- The settings that are asked for: what the flag says, else what the variable holds, else the
default. -/
def merged (f : Flags) (lookup : String → Option String) : Config where
  domain := (f.domain.or (held lookup UInt32.size Config.domainVar)).getD Config.default.domain
  matching :=
    ((f.matchTimeout.or (held lookup UInt64.size Config.matchVar)).map .ofSecs).getD
      Config.default.matching
  acknowledgment :=
    ((f.ackTimeout.or (held lookup UInt64.size Config.ackVar)).map .ofSecs).getD
      Config.default.acknowledgment
  data :=
    ((f.dataTimeout.or (held lookup UInt64.size Config.dataVar)).map .ofSecs).getD
      Config.default.data
  linger := (f.lingerMillis.map .ofMillis).getD Config.default.linger

/-- **Flags prevail** over variables and these over the defaults: the run has the settings that are
asked for, provided only that these pass. -/
def Prevails (f : Flags) (lookup : String → Option String) : Prop :=
  ∀ c, f.config lookup = .ok c ↔ (f.merged lookup).validate = .ok () ∧ c = f.merged lookup

lemma apply_environment (f : Flags) (lookup : String → Option String) :
    f.apply (environment lookup) = (do
      (f.merged lookup).validate
      return f.merged lookup) := by
  unfold apply
  simp only [environment, ← Option.getD_or, ← Option.map_or]
  rfl

/-- The variables are checked on their own, then together with the flags. -/
lemma config_eq (h : Numeric lookup) (f : Flags) :
    f.config lookup = (do
      (environment lookup).validate
      (f.merged lookup).validate
      return f.merged lookup) := by
  rw [config, Config.applyOverrides_default h]
  cases (environment lookup).validate with
  | error e => rfl
  | ok u => exact apply_environment f lookup

/-- A run has settings if the variables pass on their own and with the flags, and those are the ones
that are asked for. -/
lemma config_ok_iff (h : Numeric lookup) :
    f.config lookup = .ok c ↔
      (environment lookup).validate = .ok () ∧ (f.merged lookup).validate = .ok () ∧
        c = f.merged lookup := by
  rw [config_eq h]
  cases (environment lookup).validate <;> cases (f.merged lookup).validate <;>
    simp [bind, Except.bind, pure, Except.pure, eq_comm]

/-! ### What a flag replaces -/

/-- Every variable that a flag replaces holds a number in its range nevertheless. -/
structure ReplacesSound (f : Flags) (lookup : String → Option String) : Prop where
  domain : f.domain.isSome → ∀ n, held lookup UInt32.size Config.domainVar = some n →
    n ≤ Config.maxDomain
  matching : f.matchTimeout.isSome → ∀ n, held lookup UInt64.size Config.matchVar = some n →
    Timely (.ofSecs n)
  acknowledgment : f.ackTimeout.isSome → ∀ n, held lookup UInt64.size Config.ackVar = some n →
    Timely (.ofSecs n)
  data : f.dataTimeout.isSome → ∀ n, held lookup UInt64.size Config.dataVar = some n →
    Timely (.ofSecs n)

/-- Where what is asked for passes, the variable passes on its own unless the flag hides that it
does not. -/
lemma variable_passes_iff {α : Type} {P : α → Prop} {o v : Option Nat} {s : Nat → α} {old : α}
    (hold : P old) (h : P (((o.or v).map s).getD old)) :
    P ((v.map s).getD old) ↔ (o.isSome → ∀ n, v = some n → P (s n)) := by
  cases o with
  | none => simpa using h
  | some k => cases v <;> simp [hold]

/-- Where what is asked for passes, the variables pass on their own exactly if those do that flags
replace. -/
lemma environment_passes_iff (h : (f.merged lookup).validate = .ok ()) :
    (environment lookup).validate = .ok () ↔ f.ReplacesSound lookup := by
  have hdefault : Config.default.validate = .ok () := rfl
  obtain ⟨hdomain, hmatching, hack, hdata, hlinger⟩ := Config.validate_ok_iff.mp hdefault
  rw [Config.validate_ok_iff] at h ⊢
  obtain ⟨mdomain, mmatching, mack, mdata, -⟩ := h
  have idomain : (environment lookup).domain ≤ Config.maxDomain ↔ (f.domain.isSome → ∀ n,
      held lookup UInt32.size Config.domainVar = some n → n ≤ Config.maxDomain) := by
    have hpasses := variable_passes_iff (P := (· ≤ Config.maxDomain)) (o := f.domain) (s := id)
      hdomain (by rw [Option.map_id]; exact mdomain)
    rwa [Option.map_id] at hpasses
  have imatching := variable_passes_iff hmatching mmatching
  have iack := variable_passes_iff hack mack
  have idata := variable_passes_iff hdata mdata
  constructor
  · rintro ⟨h1, h2, h3, h4, -⟩
    exact ⟨idomain.mp h1, imatching.mp h2, iack.mp h3, idata.mp h4⟩
  · rintro ⟨h1, h2, h3, h4⟩
    exact ⟨idomain.mpr h1, imatching.mpr h2, iack.mpr h3, idata.mpr h4, hlinger⟩

/-- **Flags prevail unless they hide a fault.** Where what is asked for passes, the run has it
exactly if every variable that a flag replaces holds a number in its range as well. Otherwise it
stops at the first fault of the variables on their own. -/
theorem prevails_iff (f : Flags) (lookup : String → Option String) (h : Numeric lookup) :
    (f.Prevails lookup ↔ ((f.merged lookup).validate = .ok () → f.ReplacesSound lookup)) ∧
      (¬f.Prevails lookup →
        ∃ e, (environment lookup).validate = .error e ∧ f.config lookup = .error e) := by
  have hiff : f.Prevails lookup ↔
      ((f.merged lookup).validate = .ok () → (environment lookup).validate = .ok ()) := by
    constructor
    · intro hprevails hmerged
      exact ((config_ok_iff h).mp ((hprevails _).mpr ⟨hmerged, rfl⟩)).1
    · intro hsound c
      rw [config_ok_iff h]
      exact ⟨fun hrun => hrun.2, fun hrun => ⟨hsound hrun.1, hrun⟩⟩
  refine ⟨hiff.trans (forall_congr' fun hmerged => environment_passes_iff hmerged), fun hnot => ?_⟩
  rw [hiff, Classical.not_imp] at hnot
  cases hfault : (environment lookup).validate with
  | ok u => exact absurd hfault hnot.2
  | error e =>
    refine ⟨e, rfl, ?_⟩
    rw [config_eq h, hfault]
    rfl

def assigned (domain matching : String) : String → Option String := fun name =>
  if name = Config.domainVar then some domain
  else if name = Config.matchVar then some matching
  else none

lemma numeric_assigned {domain matching : String} {n m : Nat}
    (hn : held (assigned domain matching) UInt32.size Config.domainVar = some n)
    (hm : held (assigned domain matching) UInt64.size Config.matchVar = some m) :
    Numeric (assigned domain matching) :=
  ⟨.inr ⟨n, hn⟩, .inr ⟨m, hm⟩, .inl rfl, .inl rfl⟩

theorem prevails_iff_replaced :
    let f : Flags := { empty with domain := some 7, lingerMillis := some 0 }
    Numeric (assigned "12" " +5 ") ∧ f.ReplacesSound (assigned "12" " +5 ") ∧
      f.config (assigned "12" " +5 ") =
        .ok ⟨7, .ofSecs 5, .ofSecs 30, .ofSecs 30, .ofMillis 0⟩ := by
  intro f
  have hdomain : held (assigned "12" " +5 ") UInt32.size Config.domainVar = some 12 := rfl
  have hnumeric : Numeric (assigned "12" " +5 ") := numeric_assigned (m := 5) hdomain rfl
  have hsound : f.ReplacesSound (assigned "12" " +5 ") := by
    refine ⟨fun _ n hn => ?_, ?_, ?_, ?_⟩
    · obtain rfl : 12 = n := Option.some.inj (hdomain.symm.trans hn)
      decide
    · rintro ⟨⟩
    · rintro ⟨⟩
    · rintro ⟨⟩
  have hprevails : f.Prevails (assigned "12" " +5 ") :=
    (prevails_iff f _ hnumeric).1.mpr fun _ => hsound
  exact ⟨hnumeric, hsound, (hprevails _).mpr ⟨rfl, rfl⟩⟩

/-- A variable out of its range stops the run, although a flag replaces it. -/
theorem not_prevails_hidden :
    let f : Flags := { empty with domain := some 7 }
    Numeric (assigned "500" "5") ∧ (f.merged (assigned "500" "5")).validate = .ok () ∧
      f.config (assigned "500" "5") = .error (.domainRange 500) ∧
      ¬f.Prevails (assigned "500" "5") := by
  intro f
  have hstops : f.config (assigned "500" "5") = .error (.domainRange 500) := rfl
  refine ⟨numeric_assigned (n := 500) (m := 5) rfl rfl, rfl, hstops, fun hprevails => ?_⟩
  have hruns := (hprevails _).mpr ⟨rfl, rfl⟩
  rw [hstops] at hruns
  cases hruns

end Cli.Flags

end PubSub
