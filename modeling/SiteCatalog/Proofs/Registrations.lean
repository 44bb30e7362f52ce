import SiteCatalog.Proofs.Designations
import SiteCatalog.Proofs.RegistryIndex

/-!
# Registrations

Types are added to a registry, and classes joined with it, by one call after the other, of which some
are refused. The answers to the calls say what the registry holds and where, and so what it finds.

Results:
* `IndexedRegistry.Faithful.registerAll_eq`: calls with an index do what they do without one.
* `Registration.Puts`: what one call that is granted does.
* `Registered`: the types of a registry are those that the granted calls declare, at the places that
  were answered.
* `IndexedRegistry.finds_bears_iff`, `IndexedRegistry.findsOnly_bears_iff`: when types are found under
  all spellings of their names, and under nothing else.
* `IndexedRegistry.lookup_exact`: what a registry holds, finds and refuses after any list of calls.
-/

namespace SiteCatalog

open Descriptor (kindAndKey)

/-! ## Calls -/

/-- A type as it is written down: it is found like the type that it is declared as, whatever else it
has. -/
structure Written where
  designation : Designation
  descriptor : Descriptor
  foundLike : descriptor.FoundLike designation.descriptor

/-- A type with a literal name and nothing else. -/
def Written.ofName (kind : Kind) (name : String) : Written :=
  ⟨.literal kind name, .ofName kind name, .refl _⟩

/-- A class is found under its own name. -/
theorem Written.lookupKey_name {w : Written} (h : w.descriptor.kind = .hostclass) :
    Registry.lookupKey w.descriptor.name = w.descriptor.key := by
  obtain ⟨g, d, hlike⟩ := w
  rw [hlike.key, hlike.name]
  cases g with
  | literal kind n => exact Registry.lookupKey_normalize n
  | pattern p => cases hlike.kind.symm.trans h

/-- A call that adds a type, or joins it as a class. -/
inductive Registration
  | add (w : Written)
  | mergeClass (w : Written) (freezeMain : Bool)

namespace Registration

/-- The type of a call. -/
def written : Registration → Written
  | add w => w
  | mergeClass w _ => w

/-- What a call does to a registry. -/
def onRegistry (c : Registration) (r : Registry) : Except CompileError (TypeId × Registry) :=
  match c with
  | add w => r.add w.descriptor
  | mergeClass w freezeMain => r.mergeClass w.descriptor freezeMain

/-- The steps of a call on a registry with an index. -/
def change : Registration → IndexedRegistry.Change TypeId
  | add w => IndexedRegistry.add w.descriptor
  | mergeClass w freezeMain => IndexedRegistry.mergeClass w.descriptor freezeMain

end Registration

theorem IndexedRegistry.Faithful.change {x : IndexedRegistry} (h : x.Faithful) (c : Registration) :
    x.Matches (c.onRegistry x.registry) (c.change x) := by
  cases c with
  | add w => exact h.add w.descriptor
  | mergeClass w freezeMain => exact h.mergeClass w.descriptor freezeMain

/-- The answer to a call, and the registry after it. -/
def Registry.perform (c : Registration) (r : Registry) : Except CompileError TypeId × Registry :=
  match c.onRegistry r with
  | .ok (id, r') => (.ok id, r')
  | .error e => (.error e, r)

/-- The answer to a call, and the registry and index after it. -/
def IndexedRegistry.perform (c : Registration) (x : IndexedRegistry) :
    Except CompileError TypeId × IndexedRegistry :=
  match c.change x with
  | .ok id y => (.ok id, y)
  | .error e y => (.error e, y)

/-- Calls with their answers. -/
abbrev RegistrationLog :=
  List (Registration × Except CompileError TypeId)

namespace RegistrationLog

/-- The types that were accepted, with the places that were answered. -/
def granted (log : RegistrationLog) : List (Designation × TypeId) :=
  log.filterMap fun e => e.2.toOption.map fun id => (e.1.written.designation, id)

theorem granted_concat (log : RegistrationLog) (c : Registration)
    (answer : Except CompileError TypeId) : granted (log ++ [(c, answer)]) =
      granted log ++ (answer.toOption.map fun id => (c.written.designation, id)).toList := by
  rw [granted, List.filterMap_append]
  cases answer <;> rfl

end RegistrationLog

section Calls

variable {σ : Type} (perform : Registration → σ → Except CompileError TypeId × σ)

/-- Performs a call and notes its answer. -/
def register (s : σ × RegistrationLog) (c : Registration) : σ × RegistrationLog :=
  ((perform c s.1).2, s.2 ++ [(c, (perform c s.1).1)])

/-- Performs calls one after the other. -/
def registerAll (s : σ × RegistrationLog) (calls : List Registration) : σ × RegistrationLog :=
  calls.foldl (register perform) s

/-- Every call has its answer, in order. -/
theorem calls_registerAll (s : σ × RegistrationLog) (calls : List Registration) :
    (registerAll perform s calls).2.map Prod.fst = s.2.map Prod.fst ++ calls := by
  induction calls generalizing s with
  | nil => exact (List.append_nil _).symm
  | cons c rest ih =>
    refine (ih (register perform s c)).trans ?_
    rw [register, List.map_append, List.append_assoc]
    rfl

/-- What one call keeps, all calls keep. -/
theorem registerAll_keeps {P : σ × RegistrationLog → Prop}
    (hstep : ∀ s c, P s → P (register perform s c)) {s : σ × RegistrationLog} (h : P s)
    (calls : List Registration) : P (registerAll perform s calls) :=
  List.foldlRecOn calls (register perform) h fun t ht c _ => hstep t c ht

end Calls

/-! ## What the answers say of the registry -/

open RegistrationLog (granted)

/-- A call is refused and changes nothing, or it is granted and leaves a faithful index. -/
theorem IndexedRegistry.Faithful.register_cases {x : IndexedRegistry} (h : x.Faithful)
    (log : RegistrationLog) (c : Registration) :
    (∃ e, c.onRegistry x.registry = .error e ∧
      register perform (x, log) c = (x, log ++ [(c, .error e)])) ∨
    ∃ id y, y.Faithful ∧ c.onRegistry x.registry = .ok (id, y.registry) ∧
      register perform (x, log) c = (y, log ++ [(c, .ok id)]) := by
  have hmatches := h.change c
  rw [register, perform]
  generalize c.onRegistry x.registry = plain at hmatches ⊢
  generalize c.change x = indexed at hmatches ⊢
  cases hmatches with
  | failed e => exact .inl ⟨e, rfl, rfl⟩
  | succeeded id hy => exact .inr ⟨id, _, hy, rfl, rfl⟩

/-- With an index and without one, calls have the same answers and leave the same registry. -/
theorem IndexedRegistry.Faithful.registerAll_eq {x : IndexedRegistry} (h : x.Faithful)
    (log : RegistrationLog) (calls : List Registration) :
    registerAll Registry.perform (x.registry, log) calls =
      ((registerAll perform (x, log) calls).1.registry, (registerAll perform (x, log) calls).2) := by
  induction calls generalizing x log with
  | nil => rfl
  | cons c rest ih =>
    rw [registerAll, registerAll, List.foldl_cons, List.foldl_cons]
    obtain ⟨e, hplain, hindexed⟩ | ⟨id, y, hy, hplain, hindexed⟩ := h.register_cases log c
    · rw [hindexed, register, Registry.perform, hplain]
      exact ih h _
    · rw [hindexed, register, Registry.perform, hplain]
      exact ih hy _

/-- All types of a registry stay in their places in another one, and are found in the same way. -/
def Registry.Endures (r r' : Registry) : Prop :=
  ∀ t d, r.get? t = some d → ∃ d', r'.get? t = some d' ∧ d'.FoundLike d

namespace Registry.Endures

variable {r r' r'' : Registry}

theorem refl (r : Registry) : r.Endures r :=
  fun _ d hd => ⟨d, hd, .refl d⟩

theorem trans (h : r.Endures r') (h' : r'.Endures r'') : r.Endures r'' := by
  intro t d hd
  obtain ⟨d', hd', hlike⟩ := h t d hd
  obtain ⟨d'', hd'', hlike'⟩ := h' t d' hd'
  exact ⟨d'', hd'', hlike'.trans hlike⟩

end Registry.Endures

/-- A call puts its type at a place of a registry, or finds it there, and changes nothing else. -/
structure Registration.Puts (c : Registration) (id : TypeId) (r r' : Registry) : Prop where
  endures : r.Endures r'
  put : ∃ d, r'.get? id = some d ∧ d.FoundLike c.written.designation.descriptor
  back : ∀ t d', r'.get? t = some d' → t = id ∨ ∃ d, r.get? t = some d ∧ d'.FoundLike d
  merged : ∀ w freezeMain, c = .mergeClass w freezeMain → w.designation.kind = .hostclass

namespace Registration.Puts

variable {r r' : Registry} {d : Descriptor} {x : TypeId × Registry} {w : Written}
  {freezeMain : Bool} {id : TypeId} {c : Registration}

/-- A type that is added has the next place. -/
theorem of_add (h : r.add c.written.descriptor = .ok x)
    (hmerged : ∀ w freezeMain, c = .mergeClass w freezeMain → w.designation.kind = .hostclass) :
    c.Puts x.1 r x.2 := by
  rw [Registry.add_eq_ok h]
  refine ⟨fun t d hd => ?_, ?_, fun t d' hd' => ?_, hmerged⟩
  · exact ⟨d, Registry.get?_append_of_get? hd _, .refl d⟩
  · exact ⟨_, (Registry.get?_append ..).trans (if_pos rfl), c.written.foundLike⟩
  · rw [Registry.get?_append] at hd'
    split at hd'
    · next hlast => exact .inl hlast
    · exact .inr ⟨d', hd', .refl d'⟩

/-- A class that is joined stays in its place. -/
theorem of_mergeClass
    (hr : ∀ {t d}, r.get? t = some d → ∃ g : Designation, d.FoundLike g.descriptor)
    (h : r.mergeClass w.descriptor freezeMain = .ok x) :
    (Registration.mergeClass w freezeMain).Puts x.1 r x.2 := by
  have hkind := Registry.kind_of_mergeClass h
  have hclass : w.designation.kind = .hostclass := by
    rw [← w.designation.kind_descriptor, ← w.foundLike.kind, hkind]
  have hmerged : ∀ w' freezeMain', Registration.mergeClass w freezeMain =
      .mergeClass w' freezeMain' → w'.designation.kind = .hostclass := by
    rintro _ _ ⟨⟩
    exact hclass
  obtain ⟨-, -, hadd⟩ | ⟨id, target, hlookup, htarget, -, rfl⟩ := Registry.mergeClass_eq_ok h
  · exact of_add hadd hmerged
  · have hjoined : ∀ d : Descriptor, (d.joined w.descriptor).FoundLike d :=
      fun d => d.foundLike_joined w.descriptor
    refine ⟨fun t d hd => ?_, ⟨target.joined w.descriptor, ?_, ?_⟩, fun t d' hd' => ?_, hmerged⟩
    · rw [Registry.get?_modify, hd]
      split
      · exact ⟨_, rfl, hjoined d⟩
      · exact ⟨d, rfl, .refl d⟩
    · rw [Registry.get?_modify, if_pos rfl, htarget]
      rfl
    · refine (hjoined target).trans ?_
      obtain ⟨d, hd, hkind', hkey⟩ := Registry.get?_of_ofKey? hlookup
      cases htarget.symm.trans hd
      obtain ⟨g, hlike⟩ := hr htarget
      rw [Written.lookupKey_name hkind] at hkey
      refine hlike.trans (Designation.foundLike_of_class hclass ?_).symm
      rw [← w.foundLike.kindAndKey, ← hlike.kindAndKey]
      exact Prod.ext (hkind.trans hkind'.symm) hkey.symm
    · rw [Registry.get?_modify] at hd'
      split at hd'
      · next ht => exact .inl ht
      · exact .inr ⟨d', hd', .refl d'⟩

theorem of_onRegistry
    (hr : ∀ {t d}, r.get? t = some d → ∃ g : Designation, d.FoundLike g.descriptor)
    (h : c.onRegistry r = .ok x) : c.Puts x.1 r x.2 := by
  cases c with
  | add w => exact of_add h (fun _ _ => nofun)
  | mergeClass w freezeMain => exact of_mergeClass hr h

end Registration.Puts

/-- The types of a registry are those that the answers say. -/
structure Registered (r : Registry) (log : RegistrationLog) : Prop where
  held : ∀ id d, r.get? id = some d → ∃ g, (g, id) ∈ granted log ∧ d.FoundLike g.descriptor
  granted : ∀ g id, (g, id) ∈ granted log → ∃ d, r.get? id = some d ∧ d.FoundLike g.descriptor
  merged : ∀ w freezeMain id, (.mergeClass w freezeMain, .ok id) ∈ log →
    w.designation.kind = .hostclass

namespace Registered

variable {r : Registry} {log : RegistrationLog}

theorem empty (environment : String) : Registered (.empty environment) [] where
  held _ _ h := nomatch h
  granted _ _ h := nomatch h
  merged _ _ _ h := nomatch h

theorem designated (h : Registered r log) {t : TypeId} {d : Descriptor} (hd : r.get? t = some d) :
    ∃ g : Designation, d.FoundLike g.descriptor :=
  (h.held t d hd).imp fun _ hg => hg.2

theorem refused (h : Registered r log) (c : Registration) (e : CompileError) :
    Registered r (log ++ [(c, .error e)]) := by
  have hgranted : RegistrationLog.granted (log ++ [(c, .error e)]) = RegistrationLog.granted log :=
    (RegistrationLog.granted_concat log c _).trans (List.append_nil _)
  refine ⟨hgranted ▸ h.held, hgranted ▸ h.granted, fun w freezeMain id hmem => ?_⟩
  rcases List.mem_append.mp hmem with hmem | hmem
  · exact h.merged w freezeMain id hmem
  · cases List.mem_singleton.mp hmem

theorem puts (h : Registered r log) {c : Registration} {id : TypeId} {r' : Registry}
    (hputs : c.Puts id r r') : Registered r' (log ++ [(c, .ok id)]) := by
  have hmem : ∀ e, e ∈ RegistrationLog.granted (log ++ [(c, .ok id)]) ↔
      e ∈ RegistrationLog.granted log ∨ e = (c.written.designation, id) := by
    intro e
    rw [RegistrationLog.granted_concat, List.mem_append]
    exact or_congr_right List.mem_singleton
  refine ⟨fun t d' hd' => ?_, fun g t hg => ?_, fun w freezeMain t hlog => ?_⟩
  · rcases hputs.back t d' hd' with rfl | ⟨d, hd, hlike⟩
    · obtain ⟨d, hd, hlike⟩ := hputs.put
      cases hd.symm.trans hd'
      exact ⟨_, (hmem _).mpr (.inr rfl), hlike⟩
    · obtain ⟨g, hg, hlike'⟩ := h.held t d hd
      exact ⟨g, (hmem _).mpr (.inl hg), hlike.trans hlike'⟩
  · rcases (hmem _).mp hg with hg | hg
    · obtain ⟨d, hd, hlike⟩ := h.granted g t hg
      obtain ⟨d', hd', hlike'⟩ := hputs.endures t d hd
      exact ⟨d', hd', hlike'.trans hlike⟩
    · cases hg
      exact hputs.put
  · rcases List.mem_append.mp hlog with hlog | hlog
    · exact h.merged w freezeMain t hlog
    · cases List.mem_singleton.mp hlog
      exact hputs.merged w freezeMain rfl

end Registered

/-! ## What is found -/

namespace IndexedRegistry

/-- Every type is found under the names that `finds` has for it. -/
def Finds (x : IndexedRegistry) (finds : Designation → String → Prop)
    (log : RegistrationLog) : Prop :=
  ∀ g id, (g, id) ∈ granted log → ∀ name, finds g name → x.lookup g.kind name = some id

/-- A type is found only under the names that `finds` has for it. -/
def FindsOnly (x : IndexedRegistry) (finds : Designation → String → Prop) (log : RegistrationLog) :
    Prop :=
  ∀ kind name id, x.lookup kind name = some id →
    ∃ g, (g, id) ∈ granted log ∧ g.kind = kind ∧ finds g name

variable {x : IndexedRegistry} {log : RegistrationLog}

theorem finds_foundUnder (h : x.Faithful) (hlog : Registered x.registry log) :
    x.Finds Designation.FoundUnder log := by
  intro g id hg name hname
  obtain ⟨d, hd, hlike⟩ := hlog.granted g id hg
  refine (h _ _).mpr ⟨d, hd, Prod.ext (hlike.kind.trans g.kind_descriptor) ?_⟩
  exact hlike.key.trans (Designation.foundUnder_iff.mp hname)

theorem findsOnly_foundUnder (h : x.Faithful) (hlog : Registered x.registry log) :
    x.FindsOnly Designation.FoundUnder log := by
  intro kind name id hid
  obtain ⟨d, hd, hkey⟩ := (h _ _).mp hid
  obtain ⟨g, hg, hlike⟩ := hlog.held id d hd
  rw [hlike.kindAndKey] at hkey
  exact ⟨g, hg, g.kind_descriptor.symm.trans (congrArg Prod.fst hkey),
    Designation.foundUnder_iff.mpr (congrArg Prod.snd hkey)⟩

/-- All names that types bear find them exactly if at most one spelling of each starts with a
slash. -/
theorem finds_bears_iff (h : x.Faithful) (hlog : Registered x.registry log) :
    x.Finds Designation.Bears log ↔ ∀ e ∈ granted log, e.1.SlashedOnce := by
  constructor
  · rintro hfinds ⟨g, id⟩ hg
    refine Designation.forall_foundUnder_iff.mp fun name hname => ?_
    obtain ⟨g', hg', -, hname'⟩ :=
      findsOnly_foundUnder h hlog g.kind name id (hfinds g id hg name hname)
    obtain ⟨d, hd, hlike⟩ := hlog.granted g id hg
    obtain ⟨d', hd', hlike'⟩ := hlog.granted g' id hg'
    cases hd.symm.trans hd'
    exact Designation.foundUnder_of_foundLike (hlike.symm.trans hlike') hname'
  · intro honce g id hg name hname
    exact finds_foundUnder h hlog g id hg name
      (Designation.forall_foundUnder_iff.mpr (honce _ hg) name hname)

/-- Types are found only under names that they bear exactly if all patterns have capitals. -/
theorem findsOnly_bears_iff (h : x.Faithful) (hlog : Registered x.registry log) :
    x.FindsOnly Designation.Bears log ↔ ∀ e ∈ granted log, e.1.Capital := by
  constructor
  · rintro hfinds ⟨g, id⟩ hg
    refine Designation.forall_bears_iff.mp fun name hname => ?_
    obtain ⟨g', hg', -, hname'⟩ :=
      hfinds g.kind name id (finds_foundUnder h hlog g id hg name hname)
    obtain ⟨d, hd, hlike⟩ := hlog.granted g id hg
    obtain ⟨d', hd', hlike'⟩ := hlog.granted g' id hg'
    cases hd.symm.trans hd'
    exact Designation.bears_of_foundLike (hlike.symm.trans hlike') hname'
  · intro hcapital kind name id hid
    obtain ⟨g, hg, hkind, hname⟩ := findsOnly_foundUnder h hlog kind name id hid
    exact ⟨g, hg, hkind, Designation.forall_bears_iff.mpr (hcapital _ hg) name hname⟩

/-- A faithful index of the types that the answers say. -/
structure Sound (s : IndexedRegistry × RegistrationLog) : Prop where
  faithful : s.1.Faithful
  registered : Registered s.1.registry s.2

theorem Sound.empty (environment : String) : Sound (.empty environment, []) :=
  ⟨faithful_empty environment, .empty environment⟩

/-- One call: what was registered stays in its place. -/
theorem Sound.register {s : IndexedRegistry × RegistrationLog} (h : Sound s) (c : Registration) :
    Sound (register perform s c) ∧ s.1.registry.Endures (register perform s c).1.registry := by
  obtain ⟨e, -, heq⟩ | ⟨id, y, hy, hok, heq⟩ := h.faithful.register_cases s.2 c
  · rw [heq]
    exact ⟨⟨h.faithful, h.registered.refused c e⟩, .refl _⟩
  · have hputs : c.Puts id s.1.registry y.registry := .of_onRegistry h.registered.designated hok
    rw [heq]
    exact ⟨⟨hy, h.registered.puts hputs⟩, hputs.endures⟩

/-- Any number of calls. -/
theorem Sound.registerAll {s : IndexedRegistry × RegistrationLog} (h : Sound s)
    (calls : List Registration) : Sound (registerAll perform s calls) ∧
      s.1.registry.Endures (registerAll perform s calls).1.registry :=
  registerAll_keeps perform (P := fun t => Sound t ∧ s.1.registry.Endures t.1.registry)
    (fun _ c ht => ⟨(ht.1.register c).1, ht.2.trans (ht.1.register c).2⟩) ⟨h, .refl _⟩ calls

end IndexedRegistry

/-- What a registry finds after a list of calls. -/
theorem Registry.lookup_registerAll_iff (environment : String) (calls : List Registration)
    {kind : Kind} {name : String} {id : TypeId} :
    (registerAll perform (.empty environment, []) calls).1.lookup kind name = some id ↔
      ∃ g, (g, id) ∈ granted (registerAll perform (.empty environment, []) calls).2 ∧
        g.kind = kind ∧ g.FoundUnder name := by
  obtain ⟨hfaithful, hregistered⟩ :=
    ((IndexedRegistry.Sound.empty environment).registerAll calls).1
  rw [show registerAll perform (.empty environment, []) calls = _ from
    (IndexedRegistry.faithful_empty environment).registerAll_eq [] calls, ← hfaithful.lookup_eq]
  refine ⟨IndexedRegistry.findsOnly_foundUnder hfaithful hregistered kind name id, ?_⟩
  rintro ⟨g, hg, rfl, hname⟩
  exact IndexedRegistry.finds_foundUnder hfaithful hregistered g id hg name hname

namespace IndexedRegistry

/-- What is found goes on to be found. -/
theorem lookup_of_endures {x y : IndexedRegistry} (hx : x.Faithful) (hy : y.Faithful)
    (h : x.registry.Endures y.registry) {kind : Kind} {name : String} {id : TypeId}
    (hid : x.lookup kind name = some id) : y.lookup kind name = some id := by
  obtain ⟨d, hd, hkey⟩ := (hx _ _).mp hid
  obtain ⟨d', hd', hlike⟩ := h id d hd
  exact (hy _ _).mpr ⟨d', hd', hlike.kindAndKey.trans hkey⟩

/-- After any list of calls, the registry is the one that the calls make without an index, it holds
what the granted ones declare at the places that were answered, and kinds and keys are distinct.
Types are found under their names in small letters, whatever the spelling, unless this starts with a
slash. So each is found under all spellings of its name exactly if at most one of them starts with a
slash, and under nothing else exactly if no pattern is in small letters. A call that is refused
changes nothing, and no further call moves a type. -/
theorem lookup_exact {environment : String} {calls : List Registration} {x : IndexedRegistry}
    {log : RegistrationLog} (h : registerAll perform (empty environment, []) calls = (x, log)) :
    log.map Prod.fst = calls ∧
    registerAll Registry.perform (.empty environment, []) calls = (x.registry, log) ∧
    Registered x.registry log ∧
    (x.registry.types.map kindAndKey).Nodup ∧
    (∀ kind name, x.lookup kind name = x.registry.lookup kind name) ∧
    x.Finds Designation.FoundUnder log ∧ x.FindsOnly Designation.FoundUnder log ∧
    (x.Finds Designation.Bears log ↔ ∀ e ∈ granted log, e.1.SlashedOnce) ∧
    (x.FindsOnly Designation.Bears log ↔ ∀ e ∈ granted log, e.1.Capital) ∧
    (∀ (c : Registration) e y, c.change x = .error e y → y = x) ∧
    ∀ more, let y := (registerAll perform (x, log) more).1
      x.registry.Endures y.registry ∧
        ∀ kind name id, x.lookup kind name = some id → y.lookup kind name = some id := by
  have hsound := ((Sound.empty environment).registerAll calls).1
  have hcalls := calls_registerAll perform (empty environment, []) calls
  have hplain := (faithful_empty environment).registerAll_eq [] calls
  rw [h] at hsound hcalls hplain
  obtain ⟨hfaithful, hregistered⟩ := hsound
  refine ⟨hcalls, hplain, hregistered, hfaithful.distinct, hfaithful.lookup_eq,
    finds_foundUnder hfaithful hregistered, findsOnly_foundUnder hfaithful hregistered,
    finds_bears_iff hfaithful hregistered, findsOnly_bears_iff hfaithful hregistered,
    fun c e y hc => ?_, fun more => ?_⟩
  · have hmatches := hfaithful.change c
    rw [hc] at hmatches
    exact hmatches.eq_of_error
  · obtain ⟨hy, hendures⟩ := Sound.registerAll (s := (x, log)) ⟨hfaithful, hregistered⟩ more
    exact ⟨hendures, fun _ _ _ => lookup_of_endures hfaithful hy.faithful hendures⟩

/-- A class is declared twice, in two spellings, and joined; a node is not joined with it. -/
def webCalls : List Registration :=
  [.add (.ofName .hostclass "Web"), .mergeClass (.ofName .hostclass "::WEB") false,
    .mergeClass (.ofName .node "web") false]

theorem lookup_exact_web :
    let s := registerAll perform (empty "production", []) webCalls
    granted s.2 = [(.literal .hostclass "Web", 0), (.literal .hostclass "::WEB", 0)] ∧
      s.1.Finds Designation.Bears s.2 := by
  intro s
  obtain ⟨-, hplain, -, -, -, -, -, hfinds, -⟩ :=
    lookup_exact (Prod.mk.eta : (s.1, s.2) = s).symm
  have hgranted : granted s.2 =
      [(.literal .hostclass "Web", 0), (.literal .hostclass "::WEB", 0)] := by
    rw [show s.2 = _ from (congrArg Prod.snd hplain).symm]
    rfl
  refine ⟨hgranted, hfinds.mpr ?_⟩
  rw [hgranted]
  simp only [List.forall_mem_cons, List.not_mem_nil, false_imp_iff, implies_true, and_true]
  exact ⟨Designation.slashedOnce_of_not_slashed (by decide +kernel),
    Designation.slashedOnce_of_not_slashed (by decide +kernel)⟩

/-- A class is not found under the name that it is declared with, unless a separator is put in front
of it. -/
theorem not_finds_bears :
    let s := registerAll perform (empty "production", []) [.add (.ofName .hostclass "/Web")]
    granted s.2 = [(.literal .hostclass "/Web", 0)] ∧ s.1.lookup .hostclass "/Web" = none ∧
      s.1.lookup .hostclass "::/Web" = some 0 ∧ ¬s.1.Finds Designation.Bears s.2 := by
  intro s
  have hplain := (faithful_empty "production").registerAll_eq []
    [.add (.ofName .hostclass "/Web")]
  have hsound : Sound s := ((Sound.empty "production").registerAll _).1
  have hgranted : granted s.2 = [(.literal .hostclass "/Web", 0)] := by
    rw [show s.2 = _ from (congrArg Prod.snd hplain).symm]
    rfl
  have hlookup : ∀ name, s.1.lookup .hostclass name =
      (registerAll Registry.perform (.empty "production", [])
        [.add (.ofName .hostclass "/Web")]).1.lookup .hostclass name := by
    intro name
    rw [hsound.faithful.lookup_eq, show s.1.registry = _ from (congrArg Prod.fst hplain).symm]
    rfl
  have hnone : s.1.lookup .hostclass "/Web" = none := (hlookup _).trans (by decide +kernel)
  refine ⟨hgranted, hnone, (hlookup _).trans (by decide +kernel), fun hfinds => ?_⟩
  have hself : Name.Alike "/Web" "/Web" := Name.alike_iff.mpr rfl
  have hsome := hfinds (.literal .hostclass "/Web") 0 (hgranted ▸ List.mem_cons_self) "/Web" hself
  cases hnone.symm.trans hsome

end IndexedRegistry

end SiteCatalog
