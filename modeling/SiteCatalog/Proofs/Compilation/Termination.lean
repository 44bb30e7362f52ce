import SiteCatalog.Proofs.Compilation.AfterFacts

/-!
# Calls end

In a site in which no class that bears the title of the unnamed class has a parent, every call that
may be made while a catalog is compiled ends, whatever cycles the inclusions and the parents of
classes form. Where the unnamed class has none but another one does, this holds of the calls that
are made once the unnamed class has been entered. The runs of code that are open at once are of
different classes and nodes, except that the outermost may be that of a defined type. Only the
declaration of ever more instances of defined types can keep a compilation from ending.

Results:
* `Ends`: what it means that a call ends.
* `calls_end`: the calls end in every state in which a compilation makes calls, and in the others as
  well, unless a class that bears the title of the unnamed class has a parent.
-/

namespace SiteCatalog.Compilation

/-! ## The number of open calls -/

/-- The calls that are open are those that were open at the beginning, or one more than were open
when the innermost began. -/
theorem Run.inside_of_visits {α : Type} (p : Run α) (calls : List Call) (s : State) :
    ∀ v ∈ p.visits calls s, v.inside = calls ∨
      ∃ w ∈ p.visits calls s, ∃ c, w.event = .enter c ∧ v.inside = c :: w.inside := by
  induction p generalizing calls s with
  | done r => exact fun v hv => nomatch hv
  | read next ih => exact ih s calls s
  | change f next ih =>
    intro v hv
    rcases List.mem_cons.mp hv with rfl | hv
    · exact .inl rfl
    · rcases ih calls (f s) v hv with heq | ⟨w, hw, hx⟩
      · exact .inl heq
      · exact .inr ⟨w, List.mem_cons_of_mem _ hw, hx⟩
  | @call _ _ c inside next ihinside ihnext =>
    intro v hv
    simp only [visits, List.mem_append, List.mem_cons, List.cons_append] at hv ⊢
    rcases hv with rfl | hv | rfl | hv
    · exact .inl rfl
    · rcases ihinside (c :: calls) s v hv with heq | ⟨w, hw, hx⟩
      · exact .inr ⟨⟨.enter c, calls, s⟩, .inl rfl, c, rfl, heq⟩
      · exact .inr ⟨w, .inr (.inl hw), hx⟩
    · exact .inl rfl
    · split at hv
      · next b t hrun =>
        rcases ihnext b calls t v hv with heq | ⟨w, hw, hx⟩
        · exact .inl heq
        · exact .inr ⟨w, .inr (.inr (.inr hw)), hx⟩
      · cases hv

/-- If every run of code begins with less than `depth` others open, no more than `depth` are ever
open. -/
theorem nesting_le {α : Type} {p : Run α} {calls : List Call} {s : State} {depth : ℕ}
    (hv : ∀ v ∈ p.visits calls s, ∀ t id, v.event = .enter (.code t id) → nesting v.inside < depth)
    (hcalls : nesting calls ≤ depth) : ∀ v ∈ p.visits calls s, nesting v.inside ≤ depth := by
  have hlength : ∀ n, ∀ v ∈ p.visits calls s, v.inside.length = n → nesting v.inside ≤ depth := by
    intro n
    induction n using Nat.strong_induction_on with
    | _ n ih =>
      rintro v hmem rfl
      rcases p.inside_of_visits calls s v hmem with heq | ⟨w, hw, c, henter, heq⟩
      · rwa [heq]
      · cases hc : c.code? with
        | none =>
          rw [heq, nesting_cons hc]
          exact ih w.inside.length (by rw [heq]; simp) w hw rfl
        | some e =>
          rw [Call.code?_eq_some.mp hc] at henter heq
          rw [heq, nesting_cons_code]
          exact hv w hw e.1 e.2 henter
  exact fun v hmem => hlength _ v hmem rfl

/-! ## Calls -/

/-- A run that begins in a state ends, with a result or because the site is at fault. No more runs
of code are open at once than there are classes and nodes and one more, and whenever a variable is
looked up, the scopes lead to the top. -/
structure Ends {α : Type} (p : Run α) (s : State) : Prop where
  result : ∀ f, (p.run s).1 = .error f → ∃ e, f = .error e
  nested : ∀ v ∈ p.visits [] s, nesting v.inside ≤ s.types.singletons + 1
  upward : ∀ v ∈ p.visits [] s, ∀ k < v.state.scopes.arena.length,
    ∃ l, v.state.scopes.ReachesTop k l

/-- The limits of the calls that may be made in a state: no variable has to keep its value. -/
def callLimits (types : Registry) (anywhere : Prop) : Limits :=
  ⟨types.singletons + 1, fun _ => none, anywhere⟩

variable {s : State} {scope : ScopeId} {anywhere : Prop}

theorem kept_callLimits (types : Registry) (anywhere : Prop) (s : State) :
    (callLimits types anywhere).Kept s :=
  fun _ _ hv => nomatch hv

/-- Calls may be made once the unnamed class has been entered. They may always be made if no class
that bears its title has a parent. -/
theorem exists_inOrder (hs : Sound s) (h : MainRealized s ∨ s.types.StrictlyRooted) :
    ∃ anywhere, Sound s anywhere ∧ (callLimits s.types anywhere).InOrder s := by
  rcases h with hm | hr
  · exact ⟨False, hs, fun _ => hm, False.elim, False.elim⟩
  · exact ⟨True, hs.loosen True, fun h => absurd trivial h, fun _ => hr, fun _ => rfl⟩

theorem Ends.of_safe {α : Type} {p : Run α} {P : α → State → Prop} (hrooted : s.types.Rooted)
    (hp : p.Meets (safely (callLimits s.types anywhere) scope s) [] [] s P) : Ends p s := by
  obtain ⟨hresult, t, hsafe⟩ : (∀ f, (p.run s).1 = .error f → ∃ e, f = .error e) ∧
      ∃ t, Safe (callLimits s.types anywhere) scope s (p.visits [] s) t := by
    unfold Run.Meets at hp
    split at hp
    · next hrun =>
      rw [hrun]
      exact ⟨fun f hf => (nomatch hf), _, hp.1⟩
    · next hrun =>
      rw [hrun]
      refine ⟨fun f hf => ?_, _, hp.2⟩
      cases hf
      exact hp.1.exists_error (hrooted.of_extends hp.2.stride.types)
  refine ⟨hresult, nesting_le (fun v hv => (hsafe.visits v hv).1.depth) (Nat.zero_le _), ?_⟩
  intro v hv k hk
  obtain ⟨hrespected, hkept⟩ := hsafe.visits v hv
  exact hrespected.sound.exists_reachesTop
    ((hrooted.of_extends hsafe.stride.types).of_persists hkept) hk

theorem fit_callLimits (hs : Sound s anywhere) (horder : (callLimits s.types anywhere).InOrder s)
    (hscope : scope < s.scopes.arena.length) :
    Fit [] (callLimits s.types anywhere) (remaining s) scope s where
  sound := hs
  kept := kept_callLimits s.types anywhere s
  inOrder := horder
  started := .inl rfl
  scope := hscope
  depth := by
    rw [show nesting [] = 0 from rfl, Nat.zero_add]
    exact (remaining_le_singletons s).trans (Nat.le_succ _)
  room := le_rfl

theorem ends_evaluateResource {strict : Bool} {id : ResourceId} (hs : Sound s anywhere)
    (hrooted : s.types.Rooted) (horder : (callLimits s.types anywhere).InOrder s)
    (hid : id < s.catalog.resources.length) : Ends (evaluateResource (runCode strict) id) s := by
  have hr := List.getElem?_eq_getElem hid
  refine .of_safe hrooted (evaluateResource_safe
    (runCode_safe strict _ (remaining (s.mark id) + 1)) hs (kept_callLimits s.types anywhere s)
    horder hr (fun _ _ _ => .inl rfl) fun _ _ _ => ⟨?_, Nat.lt_succ_self _⟩)
  have hle := (remaining_le_of_step (Step.mark Scopes.top s id)).trans (remaining_le_singletons s)
  exact (Nat.add_comm ..).trans_le (Nat.succ_le_succ hle)

section

variable (rounds : ℕ) {types : Registry} (host : Host) (settings : Settings)

/-- In every state of a compilation, every evaluation of an expression, every inclusion of a class
and every evaluation of a resource ends, except that, if a class named `main` has a parent, the
unnamed class has to have been entered. Before that, the class named `main` is evaluated in its
place: it would put the scope in which it is included below the one of the parent, which is below
that scope. The compilation itself makes its calls after the unnamed class has been entered, with no
more runs of code open at once than the site has classes and nodes and one more. If it is cut short,
that is because of the number of rounds in which instances of defined types are evaluated. -/
theorem calls_end (hclosed : types.Closed) (hrooted : types.Rooted) :
    (∀ s ∈ states rounds types host settings, MainRealized s ∨ types.StrictlyRooted → ∀ strict,
      (∀ scope < s.scopes.arena.length,
        (∀ e, Ends (evaluate strict (runCode strict) scope e) s) ∧
        ∀ name params, Ends (includeClass (runCode strict) scope name params) s) ∧
      ∀ id < s.catalog.resources.length, Ends (evaluateResource (runCode strict) id) s) ∧
    (∀ v ∈ history rounds types host settings, nesting v.inside ≤ types.singletons + 1 ∧
      ∀ c, v.event = .enter c → MainRealized v.state) ∧
    ((compile rounds types host settings).1 = .error .exhausted →
      rounds ≤ evaluations (history rounds types host settings)) := by
  refine ⟨fun s hs hcondition strict => ?_, ?_⟩
  · have hroot := rooted_of_mem_states rounds host settings hclosed hrooted hs
    obtain ⟨anywhere, hsound, horder⟩ :=
      exists_inOrder (sound_of_mem_states rounds host settings hclosed hs)
        (hcondition.imp_right fun hstrict => Registry.strictlyRooted_iff.mpr
          (parentless_of_mem_states rounds host settings hclosed
            (Registry.strictlyRooted_iff.mp hstrict) hs))
    refine ⟨fun scope hscope => ?_, fun id hid => ends_evaluateResource hsound hroot horder hid⟩
    have hfit := fit_callLimits hsound horder hscope
    have hcode := runCode_safe strict (callLimits s.types anywhere) (remaining s)
    exact ⟨fun e => .of_safe hroot ((pieces_safe hcode strict).evaluate e hfit),
      fun name params => .of_safe hroot (includeClass_safe hcode hfit)⟩
  · obtain ⟨hvisits, hcut⟩ := respected_of_meets (afterFacts_informed rounds host settings hclosed
      not_false (kept_callLimits types False _) (fun _ _ => rfl) (Nat.lt_succ_self _))
    have hrespected : ∀ v ∈ history rounds types host settings, v.event = .change ∨
        (callLimits types False).Respected v := by
      rw [history_eq]
      exact forall_mem_append (fun v hv => .inl (change_of_mem_bindAtTop _ (c := {}) rfl v hv))
        fun v hv => .inr (hvisits v hv)
    refine ⟨fun v hv => ⟨?_, ?_⟩, fun hexhausted => ?_⟩
    · refine nesting_le (fun w hw t id henter => ?_) (Nat.zero_le _) v hv
      rcases hrespected w hw with hchange | hw
      · rw [henter] at hchange
        cases hchange
      · exact hw.depth t id henter
    · intro c henter
      rcases hrespected v hv with hchange | hv
      · rw [henter] at hchange
        cases hchange
      · exact (hv.inOrder c henter).main not_false
    · rw [compile_eq] at hexhausted
      rw [history_eq, evaluations_append]
      exact (hcut hexhausted).trans (Nat.le_add_left ..)

end

/-- Two classes that include each other, two that inherit from each other, and a defined type whose
instances declare longer and longer titles. -/
def tangled : Registry where
  environment := "production"
  types := [
    { Descriptor.ofName .hostclass "" with
      body := some (.code (.declare "chain" (.literal (.str "x")) [])) },
    { Descriptor.ofName .hostclass "a" with body := some (.code (.includes ["b"])) },
    { Descriptor.ofName .hostclass "b" with body := some (.code (.includes ["a"])) },
    { Descriptor.ofName .hostclass "c" with parent := some "d" },
    { Descriptor.ofName .hostclass "d" with parent := some "c" },
    { Descriptor.ofName .define "chain" with
      body := some (.code (.declare "chain" (.concat [.var "title", .literal (.str "x")]) [])) }]

/-- The host to which one of the classes that include each other is assigned. -/
def tangledHost : Host where
  given := "web01"
  classes := ["a"]

/-- A site whose unnamed class has no parent, with another class that bears its title and has one.
-/
def impostor : Registry where
  environment := "production"
  types := [Descriptor.ofName .hostclass "", Descriptor.ofName .hostclass "base",
    { Descriptor.ofName .hostclass "main" with parent := some "base" }]

/-- Whether a run goes on forever. -/
def isEndless {α : Type} : Except Failure α → Bool
  | .error .endless => true
  | _ => false

/-- Before the unnamed class has been entered, the inclusion of a class that bears its title puts
the top below the scope of the parent, which is below the top, and does not end. -/
theorem not_calls_end : impostor.Closed ∧ impostor.Rooted ∧
    ∃ s ∈ states 0 impostor { given := "web01" } {},
      ¬Ends (includeClass (runCode true) Scopes.top "main" []) s := by
  refine ⟨Registry.closed_of_unresolved (by decide +kernel),
    Registry.rooted_of_forall (by decide +kernel), _, List.mem_cons_self .., fun hends => ?_⟩
  have hrun : isEndless ((includeClass (runCode true) Scopes.top "main" []).run
      (.initial impostor { given := "web01" })).1 = true := by decide +kernel
  unfold isEndless at hrun
  split at hrun
  · next heq =>
    obtain ⟨e, he⟩ := hends.result _ heq
    cases he
  · cases hrun

/-- Whether a run was cut short by a bound. -/
def isCutShort {α : Type} : Except Failure α → Bool
  | .error .exhausted => true
  | _ => false

theorem eq_of_isCutShort {α : Type} {result : Except Failure α} (h : isCutShort result = true) :
    result = .error .exhausted := by
  unfold isCutShort at h
  split at h
  · rfl
  · cases h

/-- In the tangled site a class includes itself through the other, and this inclusion ends, as does
one of a class that is its own ancestor. It also ends before anything has been evaluated. The
instances of the defined type use up the rounds. -/
theorem calls_end_tangled :
    Ends (includeClass (runCode true) Scopes.top "a" []) (.initial tangled tangledHost) ∧
    (∃ v ∈ history 2 tangled tangledHost {},
      (∃ params, v.event = .enter (.includeClass 2 "a" params)) ∧
      v.inside.filterMap Call.code? = [(2, 3), (1, 2)] ∧ nesting v.inside ≤ 6 ∧
      Ends (includeClass (runCode true) 2 "a" []) v.state ∧
      Ends (includeClass (runCode true) Scopes.top "c" []) v.state) ∧
    (compile 2 tangled tangledHost {}).1 = .error .exhausted ∧
    2 ≤ evaluations (history 2 tangled tangledHost {}) := by
  obtain ⟨hends, hnested, hcut⟩ := calls_end 2 tangledHost {}
    (Registry.closed_of_unresolved (r := tangled) (by decide +kernel))
    (Registry.rooted_of_forall (by decide +kernel))
  have hexhausted : (compile 2 tangled tangledHost {}).1 = .error .exhausted :=
    eq_of_isCutShort (by decide +kernel)
  refine ⟨?_, ?_, hexhausted, hcut hexhausted⟩
  · have hstrict : tangled.StrictlyRooted :=
      Registry.strictlyRooted_of_forall (by decide +kernel)
    exact ((hends _ (List.mem_cons_self ..) (.inr hstrict) true).1 Scopes.top
      Nat.zero_lt_one).2 "a" []
  have hvisit : (history 2 tangled tangledHost {}).any (fun v =>
      v.event.entered?.any (fun
        | .includeClass scope name _ => scope = 2 && name = "a"
        | _ => false) &&
      v.inside.filterMap Call.code? = [(2, 3), (1, 2)] &&
      2 < v.state.scopes.arena.length) = true := by decide +kernel
  obtain ⟨v, hv, hx⟩ := List.any_eq_true.mp hvisit
  simp only [Bool.and_eq_true, decide_eq_true_eq] at hx
  obtain ⟨⟨hincludes, hinside⟩, hlt⟩ := hx
  obtain ⟨c, henter, hc⟩ := (Option.any_eq_true ..).mp hincludes
  split at hc
  · next scope name params =>
    simp only [Bool.and_eq_true, decide_eq_true_eq] at hc
    obtain ⟨rfl, rfl⟩ := hc
    replace henter := Event.entered?_eq_some.mp henter
    have hcalls := hends v.state (List.mem_cons_of_mem _ (List.mem_map_of_mem hv))
      (.inl ((hnested v hv).2 _ henter)) true
    exact ⟨v, hv, ⟨params, henter⟩, hinside, (hnested v hv).1, (hcalls.1 2 hlt).2 "a" [],
      (hcalls.1 Scopes.top (Nat.zero_lt_of_lt hlt)).2 "c" []⟩
  · cases hc

end SiteCatalog.Compilation
