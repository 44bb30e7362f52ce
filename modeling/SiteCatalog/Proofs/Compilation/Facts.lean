import SiteCatalog.Proofs.Tables
import SiteCatalog.Proofs.Compilation.AfterFacts
import SiteCatalog.Proofs.Compilation.Parameters

/-!
# Facts as constants

The facts of the host are bound at the top, where an assignment finds them bound and fails. The
unnamed class is evaluated at the top too, and the variables that its evaluation binds replace facts
of the same names; if it has a parent, its evaluation does not come to that. Every other fact keeps
its value for the rest of the compilation and is found from every scope under its name after a
separator, unless the name begins with a colon: of three colons the first is taken for the name of a
class.

Results:
* `Registry.BindsAtTop`: the names that the evaluation of the unnamed class binds.
* `lookup_fact`: every other fact is found at every moment from the binding of the facts on.
-/

namespace SiteCatalog

/-! ## Variables at the top -/

namespace Name

/-- A text without separators is not split. -/
theorem splitLast?_eq_none {cs : List Char} (h : ¬separator <:+: cs) : splitLast? cs = none := by
  induction cs with
  | nil => rfl
  | cons c rest ih =>
    have hstart : startsWithSeparator (c :: rest) = false := by
      by_contra hne
      unfold startsWithSeparator at hne
      split at hne
      · next tail heq =>
        exact h ⟨[], tail, heq.symm⟩
      · exact hne rfl
    rw [splitLast?, ih fun hinner => h (hinner.trans (List.suffix_cons c rest).isInfix), hstart]
    rfl

/-- The last separator is before a name that has none and does not begin with half of one. -/
theorem splitLast?_append {cs : List Char} (hplain : ¬separator <:+: cs)
    (hcolon : cs.head? ≠ some ':') : ∀ front : List Char,
      splitLast? (front ++ ':' :: ':' :: cs) = some (front, cs) := by
  intro front
  induction front with
  | nil =>
    have hnone : splitLast? (':' :: cs) = none := by
      have hstart : startsWithSeparator (':' :: cs) = false := by
        cases cs with
        | nil => rfl
        | cons c rest =>
          unfold startsWithSeparator
          split
          · next heq =>
            rw [List.head?_cons, (List.cons.inj (List.cons.inj heq).2).1] at hcolon
            exact absurd rfl hcolon
          · rfl
      rw [splitLast?, splitLast?_eq_none hplain, hstart]
      rfl
    rw [List.nil_append, splitLast?, hnone]
    rfl
  | cons c front ih => rw [List.cons_append, splitLast?, ih]

/-- A name after a class and a separator is that of a variable of the class. -/
theorem splitVariable?_qualified {name : String} (hplain : ¬separator <:+: name.toList)
    (hcolon : name.toList.head? ≠ some ':') (type : String) :
    splitVariable? (type ++ "::" ++ name) = some (type, name) := by
  rw [splitVariable?, String.toList_append, String.toList_append,
    show "::".toList = [':', ':'] from rfl, List.append_assoc, List.cons_append, List.cons_append,
    List.nil_append, splitLast?_append hplain hcolon]
  simp

end Name

/-! ## Facts -/

namespace Host

/-- A given fact hides a built-in one, so that the facts have different names. -/
theorem nodup_allFacts {host : Host} (h : host.facts.keys.Nodup) : host.allFacts.keys.Nodup := by
  rw [allFacts, Table.keys, List.map_append, List.nodup_append]
  refine ⟨h, ?_, ?_⟩
  · have hbuiltin : (host.builtinFacts.map (·.1)).Nodup := by
      show ["clientcert", "fqdn", "hostname"].Nodup
      decide
    exact hbuiltin.sublist (List.filter_sublist.map _)
  · rintro name hgiven other hother rfl
    obtain ⟨fact, hfact, rfl⟩ := List.mem_map.mp hother
    have hnew := (List.mem_filter.mp hfact).2
    rw [Table.has_iff_mem_keys.mpr hgiven] at hnew
    cases hnew

end Host

/-- The evaluation of the unnamed class binds a variable at the top. -/
def Registry.BindsAtTop (types : Registry) (name : String) : Prop :=
  types.unnamed.BindsInPlace name

instance (types : Registry) (name : String) : Decidable (types.BindsAtTop name) :=
  inferInstanceAs (Decidable (types.unnamed.BindsInPlace name))

namespace Compilation

variable {s : State} {types : Registry} {host : Host} {name : String} {v : Value}

theorem vars_withFacts : ∀ (facts : Table Value) {s : State} {c : Scope},
    s.scopes.get? Scopes.top = some c → (s.withFacts facts).scopes.get? Scopes.top =
      some { c with vars := facts.foldl (fun vars f => vars.insert f.1 f.2) c.vars } := by
  intro facts
  induction facts with
  | nil => exact id
  | cons fact rest ih =>
    intro s c hc
    exact ih (s := s.withFacts [fact]) (get?_withFacts hc fact.1 fact.2)

/-- Every fact is bound before anything is evaluated. -/
theorem lookupLocal_informed (hdistinct : host.facts.keys.Nodup)
    (hfact : (name, v) ∈ host.allFacts) :
    (State.informed types host).scopes.lookupLocal Scopes.top name = some v := by
  have hnodup := Host.nodup_allFacts hdistinct
  rw [Scopes.lookupLocal, State.informed, vars_withFacts host.allFacts (c := {}) rfl]
  show (Table.ofList host.allFacts).find? name = some v
  rw [Table.ofList_eq hnodup, Table.find?_of_mem hnodup hfact]

/-- A variable that the top binds is found from every scope. -/
theorem run_lookupVariable_top (hplain : ¬Name.separator <:+: name.toList)
    (hcolon : name.toList.head? ≠ some ':') (hv : s.scopes.lookupLocal Scopes.top name = some v)
    (strict : Bool) (scope : ScopeId) :
    (lookupVariable strict scope ("::" ++ name)).run s = (.ok v, s) := by
  obtain ⟨c, hc, -⟩ := Option.bind_eq_some_iff.mp hv
  have hplace : variablePlace? s scope ("::" ++ name) = some (Scopes.top, name) := by
    rw [← String.empty_append (s := "::"), variablePlace?,
      Name.splitVariable?_qualified hplain hcolon]
    rfl
  rw [run_lookupVariable, variableValue, hplace]
  dsimp only
  rw [hc, Scopes.lookup_eq_some_iff.mpr (.here hv)]
  rfl

/-- The constant that a fact is. -/
def factLimits (types : Registry) (name : String) (v : Value) : Limits :=
  ⟨types.singletons + 1, fun other => if other = name then some v else none, False⟩

theorem spares_factLimits (hfree : ¬types.BindsAtTop name) (v : Value) :
    (factLimits types name v).Spares types.unnamed := by
  refine fun other hbinds => if_neg ?_
  rintro rfl
  exact hfree hbinds

/-- A fact is found under its name after a separator, from every scope and in every state from the
binding of the facts on. -/
def IsConstant (rounds : ℕ) (types : Registry) (host : Host) (settings : Settings) (name : String)
    (v : Value) : Prop :=
  ∀ s ∈ (states rounds types host settings).drop host.allFacts.length,
    ∀ strict scope, (lookupVariable strict scope ("::" ++ name)).run s = (.ok v, s)

/-- A fact that the evaluation of the unnamed class does not replace is a constant. -/
theorem lookup_fact (rounds : ℕ) (host : Host) (settings : Settings) (hclosed : types.Closed)
    (hdistinct : host.facts.keys.Nodup) (hfact : (name, v) ∈ host.allFacts)
    (hplain : ¬Name.separator <:+: name.toList) (hcolon : name.toList.head? ≠ some ':')
    (hfree : ¬types.BindsAtTop name) : IsConstant rounds types host settings name v := by
  have hinformed : (factLimits types name v).Kept (.informed types host) := by
    intro other w hw
    obtain ⟨rfl, hvalue⟩ := Option.ite_none_right_eq_some.mp hw
    obtain rfl := Option.some.inj hvalue
    exact lookupLocal_informed hdistinct hfact
  obtain ⟨hvisits, -⟩ := respected_of_meets (afterFacts_informed rounds host settings hclosed
    not_false hinformed (spares_factLimits hfree v) (Nat.lt_succ_self _))
  intro s hs strict scope
  have hkept : (factLimits types name v).Kept s := by
    rw [drop_states] at hs
    rcases List.mem_cons.mp hs with rfl | hs
    · exact hinformed
    · obtain ⟨visit, hvisit, rfl⟩ := List.mem_map.mp hs
      exact (hvisits visit hvisit).kept
  exact run_lookupVariable_top hplain hcolon (hkept name v (if_pos rfl)) strict scope

/-- A site whose unnamed class belongs to a module and has a parameter. -/
def covering : Registry where
  environment := "production"
  types := [{ Descriptor.ofName .hostclass "" with
    moduleName := some "site", parameters := [("p", some (.literal (.str "default")))] }]

/-- A site whose unnamed class has a parent, so that its evaluation does not end. -/
def looping : Registry where
  environment := "production"
  types := [{ Descriptor.ofName .hostclass "" with parent := some "base" },
    Descriptor.ofName .hostclass "base"]

/-- A host that one thing is known about. -/
def hostWith (fact : String) : Host where
  given := "web01"
  facts := [(fact, .str "known")]

/-- The role of the host is a constant, and so is its name. Where the unnamed class has a parent,
even a fact of the name of a built-in variable is one. -/
theorem lookup_fact_covering :
    IsConstant 1 covering (hostWith "role") {} "role" (.str "known") ∧
      IsConstant 1 covering (hostWith "role") {} "fqdn" (.str "web01") ∧
      IsConstant 1 looping (hostWith "title") {} "title" (.str "known") := by
  have hclosed : covering.Closed := Registry.closed_of_unresolved (by decide +kernel)
  refine ⟨?_, ?_, ?_⟩
  · exact lookup_fact 1 (hostWith "role") {} hclosed (by decide) (.head _) (by decide) (by decide)
      (by decide +kernel)
  · have hname : (hostWith "role").name = "web01" := by decide +kernel
    refine lookup_fact 1 (hostWith "role") {} hclosed (by decide) ?_ (by decide) (by decide)
      (by decide +kernel)
    rw [← hname]
    exact List.mem_append_right _ (List.mem_filter.mpr ⟨.tail _ (.head _), by decide⟩)
  · exact lookup_fact 1 (hostWith "title") {} (Registry.closed_of_unresolved (by decide +kernel))
      (by decide) (.head _) (by decide) (by decide) (by decide +kernel)

/-- In some state from the binding of the facts on, something else is found for the one thing that
is known about a host. -/
def isReplaced (types : Registry) (fact : String) : Bool :=
  ((states 1 types (hostWith fact) {}).drop (hostWith fact).allFacts.length).any fun s =>
    match ((lookupVariable false Scopes.top ("::" ++ fact)).run s).1 with
    | .ok v => v.text != "known"
    | .error _ => true

theorem not_isConstant_of_isReplaced {fact : String} (h : isReplaced types fact = true) :
    ¬IsConstant 1 types (hostWith fact) {} fact (.str "known") := by
  intro hconstant
  obtain ⟨s, hs, hx⟩ := List.any_eq_true.mp h
  rw [hconstant s hs] at hx
  have hne : ("known" != "known") = true := hx
  exact absurd hne (by decide)

/-- Not every fact is a constant: the variables of the unnamed class replace the facts of their
names, and no name that begins with a colon is found. -/
theorem not_lookup_fact : covering.Closed ∧
    ∀ fact ∈ ["title", "name", "p", "module_name", ":x"], ¬Name.separator <:+: fact.toList ∧
      ¬IsConstant 1 covering (hostWith fact) {} fact (.str "known") := by
  have hcheck : ∀ fact ∈ ["title", "name", "p", "module_name", ":x"],
      ¬Name.separator <:+: fact.toList ∧ isReplaced covering fact = true := by
    decide +kernel
  refine ⟨Registry.closed_of_unresolved (by decide +kernel), fun fact hfact => ?_⟩
  obtain ⟨hplain, hreplaced⟩ := hcheck fact hfact
  exact ⟨hplain, not_isConstant_of_isReplaced hreplaced⟩

end Compilation

end SiteCatalog
