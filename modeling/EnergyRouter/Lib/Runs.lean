import Mathlib.Data.List.Chain

/-!
# Runs of a step function

`Meets` says that every action of a run is allowed in the state it is taken in, `Keeps` that every action returns and leaves a good
state. `meets_iff_keeps` reduces the equivalence of the two over whole runs to single steps.
-/

namespace Runs

variable {returns : Prop}

variable {S A : Type} (step : S → A → Option S)

/-- A call that returns exactly under a condition, and what it leaves then. -/
structure Outcome (call : Option S) (returns : Prop) (post : S → Prop) : Prop where
  returned : returns → ∃ s', call = some s' ∧ post s'
  stuck : ¬ returns → call = none

theorem Outcome.of_some {s' : S} {post : S → Prop} (hreturns : returns) (hpost : post s') :
    Outcome (some s') returns post :=
  ⟨fun _ => ⟨s', rfl, hpost⟩, fun hnot => absurd hreturns hnot⟩

theorem Outcome.of_spec {call : Option S} {post : S → Prop} (hsome : returns → ∃ s', call = some s')
    (hnone : ¬ returns → call = none) (hpost : ∀ s', call = some s' → post s') : Outcome call returns post := by
  refine ⟨?_, hnone⟩
  intro hreturns
  obtain ⟨s', hs'⟩ := hsome hreturns
  exact ⟨s', hs', hpost s' hs'⟩

theorem Outcome.imp {call : Option S} {post post' : S → Prop} (h : Outcome call returns post) (himp : ∀ s, post s → post' s) :
    Outcome call returns post' := by
  refine ⟨fun hreturns => ?_, h.stuck⟩
  obtain ⟨s', hs', hpost⟩ := h.returned hreturns
  exact ⟨s', hs', himp s' hpost⟩

theorem Outcome.map {T : Type} {call : Option S} {post : S → Prop} (h : Outcome call returns post) (f : S → T) :
    Outcome (call.map f) returns fun t => ∃ s, post s ∧ t = f s := by
  constructor
  · intro hreturns
    obtain ⟨s, hs, hpost⟩ := h.returned hreturns
    exact ⟨f s, by rw [hs, Option.map_some], s, hpost, rfl⟩
  · intro hnot
    rw [h.stuck hnot, Option.map_none]

/-- A call returns with a good state exactly when it returns and what it leaves is good. -/
theorem Outcome.and_iff {call : Option S} {good : Prop} {post goodState : S → Prop} (h : Outcome call returns post)
    (hgood : ∀ s', post s' → (good ↔ goodState s')) : returns ∧ good ↔ ∃ s', call = some s' ∧ goodState s' := by
  constructor
  · rintro ⟨hreturns, hg⟩
    obtain ⟨s', hs', hpost⟩ := h.returned hreturns
    exact ⟨s', hs', (hgood s' hpost).mp hg⟩
  · rintro ⟨s', hs', hg⟩
    by_cases hreturns : returns
    · obtain ⟨s'', hs'', hpost⟩ := h.returned hreturns
      cases hs'.symm.trans hs''
      exact ⟨hreturns, (hgood s' hpost).mpr hg⟩
    · cases hs'.symm.trans (h.stuck hreturns)

theorem Outcome.iff {call : Option S} {post goodState : S → Prop} (h : Outcome call returns post)
    (hgood : ∀ s', post s' → goodState s') : returns ↔ ∃ s', call = some s' ∧ goodState s' := by
  have hiff : returns ∧ True ↔ ∃ s', call = some s' ∧ goodState s' :=
    h.and_iff fun s' hpost => ⟨fun _ => hgood s' hpost, fun _ => trivial⟩
  rwa [and_true] at hiff

theorem Outcome.post_of_some {call : Option S} {post : S → Prop} (h : Outcome call returns post) {s' : S} (hs' : call = some s') :
    post s' := by
  by_cases hreturns : returns
  · obtain ⟨s'', hs'', hpost⟩ := h.returned hreturns
    cases hs'.symm.trans hs''
    exact hpost
  · cases hs'.symm.trans (h.stuck hreturns)

/-- Every action of the run, as far as the run gets, is allowed in the state it is taken in. -/
def Meets (allowed : S → A → Prop) : S → List A → Prop
  | _, [] => True
  | s, a :: as => allowed s a ∧ ∀ s', step s a = some s' → Meets allowed s' as

/-- Every action of the run returns, and the state it leaves is good. -/
def Keeps (good : A → S → Prop) : S → List A → Prop
  | _, [] => True
  | s, a :: as => ∃ s', step s a = some s' ∧ good a s' ∧ Keeps good s' as

/-- The state a run ends in, if all its actions return. -/
def run : S → List A → Option S
  | s, [] => some s
  | s, a :: as => (step s a).bind fun s' => run s' as

variable {step}

theorem run_append (s : S) (as bs : List A) : run step s (as ++ bs) = (run step s as).bind fun s' => run step s' bs := by
  induction as generalizing s with
  | nil => rfl
  | cons a as ih =>
    rw [List.cons_append, run, run, Option.bind_assoc]
    simp only [ih]

/-- Actions that change nothing can be left out of a run. -/
theorem run_filter {p : A → Bool} (hskip : ∀ s a, p a = false → step s a = some s) (s : S) (as : List A) :
    run step s (as.filter p) = run step s as := by
  induction as generalizing s with
  | nil => rfl
  | cons a as ih =>
    cases hp : p a with
    | false => rw [List.filter_cons_of_neg (by rw [hp]; exact Bool.false_ne_true), ih, run, hskip s a hp, Option.bind_some]
    | true =>
      rw [List.filter_cons_of_pos hp, run, run]
      simp only [ih]

/-- What every step preserves, a run preserves. -/
theorem inv_of_run {inv : S → Prop} (hinv : ∀ s a s', inv s → step s a = some s' → inv s') {s s' : S} (hs : inv s) {as : List A}
    (hrun : run step s as = some s') : inv s' := by
  induction as generalizing s with
  | nil =>
    cases hrun
    exact hs
  | cons a as ih =>
    obtain ⟨s₁, hs₁, hrun⟩ := Option.bind_eq_some_iff.mp hrun
    exact ih (hinv s a s₁ hs hs₁) hrun

/-- A run that returns keeps what every step preserves. -/
theorem keeps_of_run {inv : S → Prop} (hinv : ∀ s a s', inv s → step s a = some s' → inv s') {s s' : S} (hs : inv s) {as : List A}
    (hrun : run step s as = some s') : Keeps step (fun _ s => inv s) s as := by
  induction as generalizing s with
  | nil => trivial
  | cons a as ih =>
    obtain ⟨s₁, hs₁, hrun⟩ := Option.bind_eq_some_iff.mp hrun
    have hinv₁ := hinv s a s₁ hs hs₁
    exact ⟨s₁, hs₁, hinv₁, ih hinv₁ hrun⟩

/-- When allowed actions return and keep an invariant, a run of them keeps what the invariant gives. -/
theorem Meets.keeps {inv : S → Prop} {allowed : S → A → Prop} {good : S → Prop}
    (hstep : ∀ s a, inv s → allowed s a → ∃ s', step s a = some s' ∧ inv s') (hgood : ∀ s, inv s → good s) {s : S} (hs : inv s)
    {as : List A} (h : Meets step allowed s as) : Keeps step (fun _ s => good s) s as := by
  induction as generalizing s with
  | nil => trivial
  | cons a as ih =>
    obtain ⟨ha, hrest⟩ := h
    obtain ⟨s', hs', hinv⟩ := hstep s a hs ha
    exact ⟨s', hs', hgood s' hinv, ih hinv (hrest s' hs')⟩

theorem Keeps.imp {good good' : A → S → Prop} (himp : ∀ a s, good a s → good' a s) {s : S} {as : List A}
    (h : Keeps step good s as) : Keeps step good' s as := by
  induction as generalizing s with
  | nil => trivial
  | cons a as ih =>
    obtain ⟨s', hs', hgood, hrest⟩ := h
    exact ⟨s', hs', himp a s' hgood, ih hrest⟩

/-- When two properties of what an action leaves agree under the invariant, and good states have it, runs keep the one exactly when
they keep the other. -/
theorem keeps_congr {inv : S → Prop} {good good' : A → S → Prop}
    (hiff : ∀ s a s', inv s → step s a = some s' → (good a s' ↔ good' a s'))
    (hinv : ∀ s a s', inv s → step s a = some s' → good' a s' → inv s') {s : S} (hs : inv s) (as : List A) :
    Keeps step good s as ↔ Keeps step good' s as := by
  induction as generalizing s with
  | nil => exact Iff.rfl
  | cons a as ih =>
    constructor
    · rintro ⟨s', hs', hgood, hrest⟩
      have hgood' := (hiff s a s' hs hs').mp hgood
      exact ⟨s', hs', hgood', (ih (hinv s a s' hs hs' hgood')).mp hrest⟩
    · rintro ⟨s', hs', hgood', hrest⟩
      exact ⟨s', hs', (hiff s a s' hs hs').mpr hgood', (ih (hinv s a s' hs hs' hgood')).mpr hrest⟩

/-- When every step of an abstract machine is followed by a step of this one, so is every run, and all its states are related to
abstract ones. -/
theorem run_of_simulation (step : S → A → Option S) {T : Type} {next : T → A → Option T} (rel : T → S → Prop)
    (hstep : ∀ t s a t', rel t s → next t a = some t' → ∃ s', step s a = some s' ∧ rel t' s') {t t' : T} {s : S} {as : List A}
    (hs : rel t s) (ht' : run next t as = some t') :
    ∃ s', run step s as = some s' ∧ rel t' s' ∧ Keeps step (fun _ s => ∃ t, rel t s) s as := by
  induction as generalizing t s with
  | nil =>
    cases ht'
    exact ⟨s, rfl, hs, trivial⟩
  | cons a as ih =>
    obtain ⟨t₁, ht₁, ht'⟩ := Option.bind_eq_some_iff.mp ht'
    obtain ⟨s₁, hs₁, hrel⟩ := hstep t s a t₁ hs ht₁
    obtain ⟨s', hs', hrel', hkeeps⟩ := ih hrel ht'
    refine ⟨s', ?_, hrel', s₁, hs₁, ⟨t₁, hrel⟩, hkeeps⟩
    rw [run, hs₁, Option.bind_some, hs']

instance decidableMeets {allowed : S → A → Prop} [∀ s a, Decidable (allowed s a)] :
    ∀ (s : S) (as : List A), Decidable (Meets step allowed s as)
  | _, [] => isTrue trivial
  | s, a :: as =>
    match h : step s a with
    | none => decidable_of_iff (allowed s a) ⟨fun ha => ⟨ha, fun _ hs' => nomatch h.symm.trans hs'⟩, And.left⟩
    | some s' =>
      have : Decidable (Meets step allowed s' as) := decidableMeets s' as
      decidable_of_iff (allowed s a ∧ Meets step allowed s' as)
        ⟨fun ⟨ha, hrest⟩ => ⟨ha, fun _ hs'' => Option.some.inj (h.symm.trans hs'') ▸ hrest⟩,
          fun ⟨ha, hrest⟩ => ⟨ha, hrest s' h⟩⟩

instance decidableKeeps {good : A → S → Prop} [∀ a s, Decidable (good a s)] :
    ∀ (s : S) (as : List A), Decidable (Keeps step good s as)
  | _, [] => isTrue trivial
  | s, a :: as =>
    match h : step s a with
    | none => isFalse fun ⟨_, hs', _⟩ => nomatch h.symm.trans hs'
    | some s' =>
      have : Decidable (Keeps step good s' as) := decidableKeeps s' as
      decidable_of_iff (good a s' ∧ Keeps step good s' as)
        ⟨fun ⟨hgood, hrest⟩ => ⟨s', h, hgood, hrest⟩,
          fun ⟨_, hs'', hgood, hrest⟩ => Option.some.inj (h.symm.trans hs'') ▸ ⟨hgood, hrest⟩⟩

/-- Within a domain: when, under the invariant, an action is allowed exactly if it returns and leaves a good state, and good states
have the invariant, then over every run all actions are allowed exactly if all return and leave good states. -/
theorem meets_iff_keeps_within {inv : S → Prop} {dom allowed : S → A → Prop} {good : A → S → Prop}
    (hstep : ∀ s a, inv s → dom s a → (allowed s a ↔ ∃ s', step s a = some s' ∧ good a s'))
    (hinv : ∀ s a s', inv s → dom s a → step s a = some s' → good a s' → inv s') {s : S} (hs : inv s) {as : List A}
    (hdom : Meets step dom s as) : Meets step allowed s as ↔ Keeps step good s as := by
  induction as generalizing s with
  | nil => exact Iff.rfl
  | cons a as ih =>
    obtain ⟨ha, hdom⟩ := hdom
    constructor
    · rintro ⟨hallowed, hrest⟩
      obtain ⟨s', hs', hgood⟩ := (hstep s a hs ha).mp hallowed
      exact ⟨s', hs', hgood, (ih (hinv s a s' hs ha hs' hgood) (hdom s' hs')).mp (hrest s' hs')⟩
    · rintro ⟨s', hs', hgood, hrest⟩
      refine ⟨(hstep s a hs ha).mpr ⟨s', hs', hgood⟩, ?_⟩
      intro s'' hs''
      rw [hs'] at hs''
      cases hs''
      exact (ih (hinv s a s' hs ha hs' hgood) (hdom s' hs')).mpr hrest

theorem meets_of_forall {allowed : S → A → Prop} (h : ∀ s a, allowed s a) (s : S) (as : List A) : Meets step allowed s as := by
  induction as generalizing s with
  | nil => trivial
  | cons a as ih => exact ⟨h s a, fun s' _ => ih s'⟩

theorem meets_iff_keeps {inv : S → Prop} {allowed : S → A → Prop} {good : A → S → Prop}
    (hstep : ∀ s a, inv s → (allowed s a ↔ ∃ s', step s a = some s' ∧ good a s'))
    (hinv : ∀ s a s', inv s → step s a = some s' → good a s' → inv s') {s : S} (hs : inv s) (as : List A) :
    Meets step allowed s as ↔ Keeps step good s as :=
  meets_iff_keeps_within (fun s a hs _ => hstep s a hs) (fun s a s' hs _ => hinv s a s' hs) hs
    (meets_of_forall (fun _ _ => trivial) s as : Meets step (fun _ _ => True) s as)

/-- Within a domain: when two demands agree under the invariant, and actions that meet them keep it, they agree over whole runs. -/
theorem meets_congr_within {inv : S → Prop} {dom demand demand' : S → A → Prop}
    (hiff : ∀ s a, inv s → dom s a → (demand s a ↔ demand' s a))
    (hinv : ∀ s a s', inv s → dom s a → demand' s a → step s a = some s' → inv s') {s : S} (hs : inv s) {as : List A}
    (hdom : Meets step dom s as) : Meets step demand s as ↔ Meets step demand' s as := by
  induction as generalizing s with
  | nil => exact Iff.rfl
  | cons a as ih =>
    obtain ⟨hdoma, hdom⟩ := hdom
    constructor
    · rintro ⟨ha, hrest⟩
      have ha' := (hiff s a hs hdoma).mp ha
      exact ⟨ha', fun s' hs' => (ih (hinv s a s' hs hdoma ha' hs') (hdom s' hs')).mp (hrest s' hs')⟩
    · rintro ⟨ha', hrest⟩
      exact ⟨(hiff s a hs hdoma).mpr ha', fun s' hs' => (ih (hinv s a s' hs hdoma ha' hs') (hdom s' hs')).mpr (hrest s' hs')⟩

theorem meets_congr {inv : S → Prop} {demand demand' : S → A → Prop} (hiff : ∀ s a, inv s → (demand s a ↔ demand' s a))
    (hinv : ∀ s a s', inv s → demand' s a → step s a = some s' → inv s') {s : S} (hs : inv s) (as : List A) :
    Meets step demand s as ↔ Meets step demand' s as :=
  meets_congr_within (fun s a hs _ => hiff s a hs) (fun s a s' hs _ => hinv s a s' hs) hs
    (meets_of_forall (fun _ _ => trivial) s as : Meets step (fun _ _ => True) s as)

theorem Meets.imp {demand demand' : S → A → Prop} (himp : ∀ s a, demand s a → demand' s a) {s : S} {as : List A}
    (h : Meets step demand s as) : Meets step demand' s as := by
  induction as generalizing s with
  | nil => trivial
  | cons a as ih => exact ⟨himp s a h.1, fun s' hs' => ih (h.2 s' hs')⟩

/-- The same when the states have an invariant that actions meeting the first demand keep. -/
theorem Meets.imp_of_inv {inv : S → Prop} {demand demand' : S → A → Prop}
    (hinv : ∀ s a s', inv s → demand s a → step s a = some s' → inv s') (himp : ∀ s a, inv s → demand s a → demand' s a) {s : S}
    (hs : inv s) {as : List A} (h : Meets step demand s as) : Meets step demand' s as := by
  induction as generalizing s with
  | nil => trivial
  | cons a as ih =>
    obtain ⟨ha, hrest⟩ := h
    exact ⟨himp s a hs ha, fun s' hs' => ih (hinv s a s' hs ha hs') (hrest s' hs')⟩

/-- A run whose actions are all good meets a demand together with that. -/
theorem Meets.and_of_mem {demand : S → A → Prop} {good : A → Prop} {s : S} {as : List A} (h : Meets step demand s as)
    (hgood : ∀ a ∈ as, good a) : Meets step (fun s a => good a ∧ demand s a) s as := by
  induction as generalizing s with
  | nil => trivial
  | cons a as ih =>
    obtain ⟨ha, hrest⟩ := h
    obtain ⟨hgooda, hgoodrest⟩ := List.forall_mem_cons.mp hgood
    exact ⟨⟨hgooda, ha⟩, fun s' hs' => ih (hrest s' hs') hgoodrest⟩

theorem meets_of_mem {good : A → Prop} {s : S} {as : List A} (hgood : ∀ a ∈ as, good a) : Meets step (fun _ a => good a) s as :=
  ((meets_of_forall (fun _ _ => trivial) s as : Meets step (fun _ _ => True) s as).and_of_mem hgood).imp fun _ _ h => h.1

/-- The last action of a run meets the demand in the state the actions before it lead to. -/
theorem Meets.demand_of_run {demand : S → A → Prop} {s s' : S} (as : List A) {a : A} (h : Meets step demand s (as ++ [a]))
    (hrun : run step s as = some s') : demand s' a := by
  induction as generalizing s with
  | nil =>
    cases hrun
    exact h.1
  | cons b as ih =>
    obtain ⟨s₁, hs₁, hrun⟩ := Option.bind_eq_some_iff.mp hrun
    exact ih (h.2 s₁ hs₁) hrun

/-- The state a run ends in is good, when every step of the run leaves a good state. -/
theorem Meets.good_of_run {good : S → Prop} {s s' : S} {as : List A}
    (h : Meets step (fun s a => ∀ s', step s a = some s' → good s') s as) (hs : good s) (hrun : run step s as = some s') :
    good s' := by
  induction as generalizing s with
  | nil =>
    cases hrun
    exact hs
  | cons a as ih =>
    obtain ⟨s₁, hs₁, hrun⟩ := Option.bind_eq_some_iff.mp hrun
    exact ih (h.2 s₁ hs₁) (h.1 s₁ hs₁) hrun

/-- When the state remembers the last action, those of a chain are each related to the one remembered. -/
theorem meets_of_isChain {rel : A → A → Prop} {last : S → Option A} (hlast : ∀ s a s', step s a = some s' → last s' = some a)
    {s : S} {as : List A} (h : List.IsChain rel ((last s).toList ++ as)) :
    Meets step (fun s a => ∀ p, last s = some p → rel p a) s as := by
  induction as generalizing s with
  | nil => trivial
  | cons a as ih =>
    refine ⟨?_, ?_⟩
    · intro p hp
      rw [hp] at h
      exact h.rel
    · intro s' hs'
      refine ih ?_
      rw [hlast s a s' hs']
      exact h.right_of_append

theorem forall_iff_keeps {inv : S → Prop} {allowed : A → Prop} {good : A → S → Prop}
    (hstep : ∀ s a, inv s → (allowed a ↔ ∃ s', step s a = some s' ∧ good a s'))
    (hinv : ∀ s a s', inv s → step s a = some s' → good a s' → inv s') {s : S} (hs : inv s) (as : List A) :
    (∀ a ∈ as, allowed a) ↔ Keeps step good s as := by
  induction as generalizing s with
  | nil => exact ⟨fun _ => trivial, fun _ a ha => absurd ha List.not_mem_nil⟩
  | cons a as ih =>
    rw [List.forall_mem_cons]
    constructor
    · rintro ⟨hallowed, hrest⟩
      obtain ⟨s', hs', hgood⟩ := (hstep s a hs).mp hallowed
      exact ⟨s', hs', hgood, (ih (hinv s a s' hs hs' hgood)).mp hrest⟩
    · rintro ⟨s', hs', hgood, hrest⟩
      exact ⟨(hstep s a hs).mpr ⟨s', hs', hgood⟩, (ih (hinv s a s' hs hs' hgood)).mpr hrest⟩

end Runs
