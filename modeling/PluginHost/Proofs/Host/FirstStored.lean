import PluginHost.Host.Interleaving
import PluginHost.Proofs.Loader.Steps

/-! # The first instance stays

However loads through a description get in each other's way, the description keeps the first
instance that is settled on, and every load that succeeds gives that one. -/

namespace PluginHost

variable {σ : Type}

/-! ## Instances that come from the loader -/

/-- The instance has not been linked yet and has been told nothing. -/
def EditorPlugin.Fresh (p : EditorPlugin) : Prop :=
  p.link = WeakLink.empty ∧ p.history = []

/-- The instance is linked to the description, and was told so once and of nothing else. -/
def EditorPlugin.LinkedOnce (p : EditorPlugin) (record : Record) : Prop :=
  p.link = ⟨some record.id⟩ ∧ p.history.links = [(record.id, record.info.name)]

theorem fresh_of_welcome {name path : String} {service : Option String} {residency : Residency}
    {outcome : FactoryOutcome} {p : EditorPlugin}
    (h : welcome name path service residency outcome = .ok p) : p.Fresh := by
  unfold welcome at h
  split at h
  · cases h
  · cases h
  · split at h
    · cases h
    · cases h
      exact ⟨rfl, rfl⟩

theorem LoadRule.fresh {backend : Backend σ} {fs : FileSystem} {name path : String}
    {options : LoadOptions σ} {state : σ} {report : LoadReport σ} {p : EditorPlugin}
    (h : LoadRule backend fs name path options state report) (hp : report.result = .ok p) :
    p.Fresh := by
  cases h with
  | nameless => cases hp
  | refused => cases hp
  | unmapped => cases hp
  | withoutFactory => cases hp
  | ran => exact fresh_of_welcome hp

theorem LoaderGives.fresh {record : Record} {p : EditorPlugin}
    (h : LoaderGives record (.ok p)) : p.Fresh := by
  obtain ⟨τ, loader, fs, library, owner, state, _, hp⟩ := h
  exact (load_rule loader fs library _ state).fresh hp

theorem EditorPlugin.Fresh.setRecord {p : EditorPlugin} (h : p.Fresh) (alive : Nat → Bool)
    (t : Linked) :
    p.setRecord alive (some t) =
      { p with link := ⟨some t.record⟩ }.notify alive t := by
  obtain ⟨hlink, _⟩ := h
  simp [EditorPlugin.setRecord, hlink, WeakLink.set, WeakLink.isLinkedTo, WeakLink.empty]

theorem EditorPlugin.Fresh.linkedOnce {p : EditorPlugin} (h : p.Fresh) (host : Host σ)
    (record : Record) :
    (p.setRecord (fun _ => true) (some (host.linkedAs record))).LinkedOnce record := by
  rw [h.setRecord]
  refine ⟨rfl, ?_⟩
  simp only [EditorPlugin.notify, h.2]
  rfl

namespace Host

@[simp] theorem cached?_linkNew (h : Host σ) (record : Record) (p : EditorPlugin) (id : Nat) :
    (h.linkNew record p).2.cached? id = h.cached? id := rfl

theorem instances_linkNew (h : Host σ) (record : Record) (p : EditorPlugin) :
    (h.linkNew record p).2.instances =
      h.instances ++ [p.setRecord (fun _ => true) (some (h.linkedAs record))] := rfl

@[simp] theorem instances_settle (h : Host σ) (id number : Nat) :
    (h.settle id number).2.instances = h.instances := by
  unfold settle
  split <;> rfl

theorem settle_of_cached {h : Host σ} {id first : Nat} (hc : h.cached? id = some first)
    (number : Nat) : h.settle id number = (first, h) := by
  simp only [settle, hc]

theorem settle_of_none {h : Host σ} {id : Nat} (hc : h.cached? id = none) (number : Nat) :
    h.settle id number = (number, { h with caches := h.caches ++ [(id, number)] }) := by
  simp only [settle, hc]

theorem cached?_settle (h : Host σ) (id number : Nat) :
    (h.settle id number).2.cached? id = some (h.settle id number).1 := by
  cases hc : h.cached? id with
  | some first => rw [settle_of_cached hc, hc]
  | none =>
      rw [settle_of_none hc]
      simp only [cached?] at hc ⊢
      rw [List.lookup_append, hc]
      simp

end Host

theorem LoadStage.own?_of_failed {stage : LoadStage} {e : HostError}
    (h : stage.result? = some (.error e)) : stage.own? = none := by
  cases stage with
  | failed => rfl
  | begun => rfl
  | loading => rfl
  | received => rfl
  | found => rfl
  | linked => cases h
  | settled => cases h

theorem Host.look_cases (h : Host σ) (record : Record) :
    (∃ n, h.cached? record.id = some n ∧ h.look record = .found n) ∨
      h.look record = .loading ∨ ∃ e, h.look record = .failed e := by
  unfold Host.look
  cases h.cached? record.id with
  | some n => exact .inl ⟨n, rfl, rfl⟩
  | none =>
      cases record.info.plugin with
      | none => exact .inr (.inr ⟨_, rfl⟩)
      | some library => exact .inr (.inl rfl)

theorem Host.look_of_cached {h : Host σ} {record : Record} {n : Nat}
    (hn : h.cached? record.id = some n) : h.look record = .found n := by
  simp only [Host.look, hn]

theorem Host.own?_look (h : Host σ) (record : Record) : (h.look record).own? = none := by
  rcases h.look_cases record with ⟨n, _, hfound⟩ | hloading | ⟨e, hfailed⟩
  · rw [hfound]
    rfl
  · rw [hloading]
    rfl
  · rw [hfailed]
    rfl

theorem Host.look_ne_received (h : Host σ) (record : Record) (p : EditorPlugin) :
    h.look record ≠ .received p := by
  rcases h.look_cases record with ⟨n, _, hfound⟩ | hloading | ⟨e, hfailed⟩
  · simp [hfound]
  · simp [hloading]
  · simp [hfailed]

theorem Host.cached?_of_look {h : Host σ} {record : Record} {n : Nat}
    (hn : (h.look record).result? = some (.ok n)) : h.cached? record.id = some n := by
  rcases h.look_cases record with ⟨m, hm, hfound⟩ | hloading | ⟨e, hfailed⟩
  · rw [hfound] at hn
    cases hn
    exact hm
  · rw [hloading] at hn
    cases hn
  · rw [hfailed] at hn
    cases hn

/-! ## One move of a load -/

section

variable {record : Record} {h after : Host σ} {stage next : LoadStage} {n : Nat}

/-- A load that has come to its end moves no more. -/
theorem LoadMove.not_ended (hm : LoadMove record h stage next after) : stage.result? = none := by
  cases hm with
  | look => rfl
  | receive => rfl
  | link => rfl
  | settle => rfl

theorem LoadMove.kept (hm : LoadMove record h stage next after)
    (hn : h.cached? record.id = some n) : after.cached? record.id = some n := by
  cases hm with
  | look => exact hn
  | receive => exact hn
  | link => exact hn
  | settle => rw [Host.settle_of_cached hn, hn]

/-- Only settling makes the description keep an instance, the load's own. -/
theorem LoadMove.stored (hm : LoadMove record h stage next after)
    (hnone : h.cached? record.id = none) (hn : after.cached? record.id = some n) :
    stage = .linked n ∧ next = .settled n n := by
  cases hm with
  | look => cases hnone.symm.trans hn
  | receive => cases hnone.symm.trans hn
  | link => cases hnone.symm.trans hn
  | settle own =>
      rw [Host.cached?_settle, Host.settle_of_none hnone] at hn
      cases hn
      rw [Host.settle_of_none hnone]
      exact ⟨rfl, rfl⟩

theorem LoadMove.returned (hm : LoadMove record h stage next after)
    (hn : next.result? = some (.ok n)) : after.cached? record.id = some n := by
  cases hm with
  | look => exact Host.cached?_of_look hn
  | receive result hr => cases result <;> cases hn
  | link => cases hn
  | settle =>
      cases hn
      exact h.cached?_settle record.id _

theorem LoadMove.instance (hm : LoadMove record h stage next after) {p : EditorPlugin}
    (hn : h.instances[n]? = some p) : after.instances[n]? = some p := by
  cases hm with
  | look => exact hn
  | receive => exact hn
  | link p =>
      obtain ⟨hlt, _⟩ := List.getElem?_eq_some_iff.mp hn
      rw [Host.instances_linkNew, List.getElem?_append_left hlt, hn]
  | settle => rw [Host.instances_settle, hn]

/-- A load never makes a second instance. -/
theorem LoadMove.own (hm : LoadMove record h stage next after) (hn : stage.own? = some n) :
    next.own? = some n := by
  cases hm with
  | look => cases hn
  | receive => cases hn
  | link => cases hn
  | settle => exact hn

/-- A load has its instance by linking what it received. -/
theorem LoadMove.own_origin (hm : LoadMove record h stage next after)
    (hn : next.own? = some n) : stage.own? = some n ∨ ∃ p, stage = .received p := by
  cases hm with
  | look => cases (h.own?_look record).symm.trans hn
  | receive result hr => cases result <;> cases hn
  | link p => exact .inr ⟨p, rfl⟩
  | settle => exact .inl hn

theorem LoadMove.fresh (hm : LoadMove record h stage next after) {p : EditorPlugin}
    (hp : next = .received p) : p.Fresh := by
  cases hm with
  | look => exact absurd hp (h.look_ne_received record p)
  | receive result hr =>
      cases result with
      | error e => cases hp
      | ok q =>
          cases hp
          exact hr.fresh
  | link => cases hp
  | settle => cases hp

/-- A load without an instance at its end has left the host alone. -/
theorem LoadMove.host_eq (hm : LoadMove record h stage next after) (hn : next.own? = none) :
    after = h := by
  cases hm with
  | look => rfl
  | receive => rfl
  | link => cases hn
  | settle => cases hn

theorem LoadMove.of_received {p : EditorPlugin}
    (hm : LoadMove record h (.received p) next after) :
    next = .linked (h.linkNew record p).1 ∧ after = (h.linkNew record p).2 := by
  cases hm
  exact ⟨rfl, rfl⟩

theorem LoadMove.of_begun (hm : LoadMove record h .begun next after) :
    next = h.look record ∧ after = h := by
  cases hm
  exact ⟨rfl, rfl⟩

end

namespace Loads

variable {record : Record} {s t u : Loads σ} {mover : Option Nat}

/-! ## One move of any of the loads -/

theorem advance_self {i : Nat} {stage : LoadStage} (h : s.calls[i]? = some stage)
    (next : LoadStage) (host : Host σ) : (s.advance i next host).calls[i]? = some next := by
  rw [advance, List.getElem?_set_self']
  simp [h]

theorem advance_other {i j : Nat} (h : i ≠ j) (next : LoadStage) (host : Host σ) :
    (s.advance i next host).calls[j]? = s.calls[j]? :=
  List.getElem?_set_ne h

/-- A load stays where it is, or makes the move itself. -/
theorem Move.next (h : Move record s mover t) {i : Nat} {stage : LoadStage}
    (hi : s.calls[i]? = some stage) :
    t.calls[i]? = some stage ∨ mover = some i ∧
      ∃ next, t.calls[i]? = some next ∧ LoadMove record s.host stage next t.host := by
  cases h with
  | enter =>
      obtain ⟨hlt, _⟩ := List.getElem?_eq_some_iff.mp hi
      exact .inl (by rw [List.getElem?_append_left hlt, hi])
  | own j stage' next host hj hm =>
      by_cases heq : j = i
      · subst heq
        cases Option.some.inj (hi.symm.trans hj)
        exact .inr ⟨rfl, next, advance_self hj next host, hm⟩
      · exact .inl (by rw [advance_other heq, hi])
  | elsewhere host hs => exact .inl hi

/-- Where a load has come from: it was there before, or has just begun, or made the move itself. -/
theorem Move.origin (h : Move record s mover t) {i : Nat} {next : LoadStage}
    (hi : t.calls[i]? = some next) :
    s.calls[i]? = some next ∨ next = .begun ∨
      ∃ stage, s.calls[i]? = some stage ∧ LoadMove record s.host stage next t.host := by
  cases h with
  | enter =>
      rw [List.getElem?_append] at hi
      split at hi
      · exact .inl hi
      · exact .inr (.inl (List.mem_singleton.mp (List.mem_of_getElem? hi)))
  | own j stage next' host hj hm =>
      by_cases heq : j = i
      · subst heq
        rw [advance_self hj] at hi
        cases hi
        exact .inr (.inr ⟨stage, hj, hm⟩)
      · exact .inl (by rw [advance_other heq] at hi; exact hi)
  | elsewhere host hs => exact .inl hi

theorem Move.kept (h : Move record s mover t) {n : Nat} (hn : s.kept? record = some n) :
    t.kept? record = some n := by
  cases h with
  | enter => exact hn
  | own i stage next host hi hm => exact hm.kept hn
  | elsewhere host hs => exact hs.kept_eq.trans hn

theorem own?_of_stage {i : Nat} {stage : LoadStage} (h : s.calls[i]? = some stage) :
    s.own? i = stage.own? := by
  rw [own?, h, Option.bind_some]

theorem result?_of_stage {i : Nat} {stage : LoadStage} (h : s.calls[i]? = some stage) :
    s.result? i = stage.result? := by
  rw [result?, h, Option.bind_some]

theorem own?_eq_some {i n : Nat} (h : s.own? i = some n) :
    ∃ stage, s.calls[i]? = some stage ∧ stage.own? = some n :=
  Option.bind_eq_some_iff.mp h

theorem result?_eq_some {i : Nat} {result : Except HostError Nat} (h : s.result? i = some result) :
    ∃ stage, s.calls[i]? = some stage ∧ stage.result? = some result :=
  Option.bind_eq_some_iff.mp h

/-! ## The instances of loads -/

/-- A load has made an instance of the plugin, linked to the description once. -/
def Owns (record : Record) (s : Loads σ) (i n : Nat) (plugin : Plugin) : Prop :=
  s.own? i = some n ∧
    ∃ q, s.host.instances[n]? = some q ∧ q.plugin = plugin ∧ q.LinkedOnce record

theorem Move.own_eq (h : Move record s mover t) {i n : Nat} (hn : s.own? i = some n) :
    t.own? i = some n := by
  obtain ⟨stage, hi, hstage⟩ := own?_eq_some hn
  rcases h.next hi with hstays | ⟨_, next, hnext, hm⟩
  · rw [own?_of_stage hstays, hstage]
  · rw [own?_of_stage hnext, hm.own hstage]

theorem Move.owns (h : Move record s mover t) {i n : Nat} {plugin : Plugin}
    (ho : s.Owns record i n plugin) : t.Owns record i n plugin := by
  obtain ⟨hown, q, hq, rfl, hlink, hlinks⟩ := ho
  refine ⟨h.own_eq hown, ?_⟩
  cases h with
  | enter => exact ⟨q, hq, rfl, hlink, hlinks⟩
  | own j stage next host hj hm => exact ⟨q, hm.instance hq, rfl, hlink, hlinks⟩
  | elsewhere host hs =>
      obtain ⟨q', hq', hplugin, hlink', hlinks'⟩ := hs.own_eq i n q hown hq
      exact ⟨q', hq', hplugin, hlink'.trans hlink, hlinks'.trans hlinks⟩

/-- What a load received it still has, or it has linked it. -/
theorem Move.received (h : Move record s mover t) {i : Nat} {p : EditorPlugin}
    (hi : s.calls[i]? = some (.received p)) (hp : p.Fresh) :
    t.calls[i]? = some (.received p) ∨ ∃ n, t.Owns record i n p.plugin := by
  rcases h.next hi with hstays | ⟨_, next, hnext, hm⟩
  · exact .inl hstays
  · obtain ⟨rfl, hhost⟩ := hm.of_received
    refine .inr ⟨_, own?_of_stage hnext, _, ?_, ?_, hp.linkedOnce s.host record⟩
    · rw [hhost, Host.instances_linkNew]
      exact List.getElem?_concat_length
    · rw [hp.setRecord]
      rfl

/-- What holds at every moment of loads. -/
structure Sound (record : Record) (s : Loads σ) : Prop where
  fresh : ∀ (i : Nat) (p : EditorPlugin), s.calls[i]? = some (.received p) → p.Fresh
  owns : ∀ i n, s.own? i = some n → ∃ plugin, s.Owns record i n plugin
  returned : ∀ i n, s.result? i = some (.ok n) → s.kept? record = some n

theorem Sound.none (record : Record) (h : Host σ) : Sound record ⟨h, []⟩ where
  fresh i p hi := by simp at hi
  owns i n hn := by simp [own?] at hn
  returned i n hn := by simp [result?] at hn

theorem Move.sound (h : Move record s mover t) (hs : s.Sound record) : t.Sound record := by
  constructor
  case fresh =>
    intro i p hi
    rcases h.origin hi with hold | hbegun | ⟨stage, _, hm⟩
    · exact hs.fresh i p hold
    · cases hbegun
    · exact hm.fresh rfl
  case owns =>
    intro i n hn
    obtain ⟨next, hi, hnext⟩ := own?_eq_some hn
    have hstays : s.own? i = some n → ∃ plugin, t.Owns record i n plugin := by
      intro hown
      obtain ⟨plugin, ho⟩ := hs.owns i n hown
      exact ⟨plugin, h.owns ho⟩
    rcases h.origin hi with hold | rfl | ⟨stage, hstage, hm⟩
    · exact hstays (by rw [own?_of_stage hold, hnext])
    · cases hnext
    · rcases hm.own_origin hnext with hown | ⟨p, rfl⟩
      · exact hstays (by rw [own?_of_stage hstage, hown])
      · rcases h.received hstage (hs.fresh i p hstage) with hno | ⟨m, ho⟩
        · cases Option.some.inj (hi.symm.trans hno)
          cases hnext
        · cases Option.some.inj (hn.symm.trans ho.1)
          exact ⟨p.plugin, ho⟩
  case returned =>
    intro i n hn
    obtain ⟨next, hi, hnext⟩ := result?_eq_some hn
    rcases h.origin hi with hold | rfl | ⟨stage, _, hm⟩
    · exact h.kept (hs.returned i n (by rw [result?_of_stage hold, hnext]))
    · cases hnext
    · exact hm.returned hnext

/-! ## Any number of moves -/

theorem Run.kept (h : Run record s t) {n : Nat} (hn : s.kept? record = some n) :
    t.kept? record = some n := by
  induction h with
  | refl => exact hn
  | snoc _ hm ih => exact hm.kept ih

theorem Run.sound (h : Run record s t) (hs : s.Sound record) : t.Sound record := by
  induction h with
  | refl => exact hs
  | snoc _ hm ih => exact hm.sound ih

theorem Run.own_eq (h : Run record s t) {i n : Nat} (hn : s.own? i = some n) :
    t.own? i = some n := by
  induction h with
  | refl => exact hn
  | snoc _ hm ih => exact hm.own_eq ih

theorem Run.received (h : Run record s t) {i : Nat} {p : EditorPlugin}
    (hi : s.calls[i]? = some (.received p)) (hp : p.Fresh) :
    t.calls[i]? = some (.received p) ∨ ∃ n, t.Owns record i n p.plugin := by
  induction h with
  | refl => exact .inl hi
  | snoc _ hm ih =>
      rcases ih with hstays | ⟨n, ho⟩
      · exact hm.received hstays hp
      · exact .inr ⟨n, hm.owns ho⟩

/-- A load that begins while the description keeps an instance does nothing but find it. -/
theorem Run.found (h : Run record s t) {i n : Nat} (hi : s.calls[i]? = some .begun)
    (hn : s.kept? record = some n) :
    t.calls[i]? = some .begun ∨ t.calls[i]? = some (.found n) := by
  induction h with
  | refl => exact .inl hi
  | snoc hr hm ih =>
      rcases ih with hbegun | hfound
      · rcases hm.next hbegun with hstays | ⟨_, next, hnext, hlook⟩
        · exact .inl hstays
        · obtain ⟨rfl, _⟩ := hlook.of_begun
          exact .inr (by rw [hnext, Host.look_of_cached (hr.kept hn)])
      · rcases hm.next hfound with hstays | ⟨_, _, _, hended⟩
        · exact .inr hstays
        · cases hended.not_ended

theorem Run.trans (h : Run record s t) (hmore : Run record t u) : Run record s u := by
  induction hmore with
  | refl => exact h
  | snoc _ hm ih => exact .snoc ih hm

/-! ## A later load -/

/-- A load may move while others that began before and after it wait. -/
theorem Move.among {h after : Host σ} {stage next : LoadStage}
    (hm : LoadMove record h stage next after) (before later : List LoadStage) :
    Move record ⟨h, before ++ stage :: later⟩ (some before.length)
      ⟨after, before ++ next :: later⟩ := by
  have hmove := Move.own (s := ⟨h, before ++ stage :: later⟩) before.length stage next after
    (by simp) hm
  simpa [advance] using hmove

/-- While nothing is kept a load can succeed if the loader can, whatever failed before. -/
theorem Run.succeeds (hnone : s.kept? record = none) {p : EditorPlugin}
    (hp : LoaderGives record (.ok p)) :
    ∃ t n, Run record s t ∧ t.calls = s.calls ++ [.settled n n] ∧ t.kept? record = some n := by
  have hlook : s.host.look record = .loading := by
    obtain ⟨_, _, _, library, _, _, hlibrary, _⟩ := hp
    have hcached : s.host.cached? record.id = none := hnone
    simp only [Host.look, hcached, hlibrary]
  let n := (s.host.linkNew record p).1
  let linked := (s.host.linkNew record p).2
  have hlinked : linked.cached? record.id = none := hnone
  have hbegun : Run record s ⟨s.host, s.calls ++ [.begun]⟩ := .snoc (.refl s) .enter
  have hloading : Run record s ⟨s.host, s.calls ++ [.loading]⟩ := by
    rw [← hlook]
    exact .snoc hbegun (.among .look s.calls [])
  have hreceived : Run record s ⟨s.host, s.calls ++ [.received p]⟩ :=
    .snoc hloading (.among (.receive _ hp) s.calls [])
  have hown : Run record s ⟨linked, s.calls ++ [.linked n]⟩ :=
    .snoc hreceived (.among (.link p) s.calls [])
  have hsettled := Run.snoc hown (.among (.settle n) s.calls [])
  refine ⟨_, n, hsettled, ?_, ?_⟩
  · rw [Host.settle_of_none hlinked]
  · have hkept := linked.cached?_settle record.id n
    rwa [Host.settle_of_none hlinked] at hkept ⊢

/-! ## The first instance stays -/

/-- What is true of loads that come from one state by a move to the next and from there on. -/
structure FirstStays (record : Record) (s : Loads σ) (mover : Option Nat) (t u : Loads σ) :
    Prop where
  kept : ∀ n, s.kept? record = some n → t.kept? record = some n ∧ u.kept? record = some n
  /-- An instance is stored by the load that made it, after it was linked. -/
  stored : s.kept? record = none → ∀ n, t.kept? record = some n →
    ∃ i plugin, mover = some i ∧ s.calls[i]? = some (.linked n) ∧
      t.calls[i]? = some (.settled n n) ∧ s.Owns record i n plugin
  returned : ∀ i n, u.result? i = some (.ok n) → u.kept? record = some n
  failed : ∀ i e, u.result? i = some (.error e) → mover = some i → t.host = s.host
  /-- A load that begins when an instance is kept never gets to the loader or to a plugin. -/
  found : ∀ i n, s.calls[i]? = some .begun → s.kept? record = some n →
    (mover = some i → t.host = s.host ∧ t.calls[i]? = some (.found n)) ∧
      (u.calls[i]? = some .begun ∨ u.calls[i]? = some (.found n))
  /-- An instance that a load received is linked before anything else becomes of it. -/
  received : ∀ (i : Nat) (p : EditorPlugin), s.calls[i]? = some (.received p) →
    u.calls[i]? = some (.received p) ∨ ∃ n, u.Owns record i n p.plugin
  owns : ∀ i n, u.own? i = some n → ∃ plugin, u.Owns record i n plugin
  retried : u.kept? record = none → ∀ p, LoaderGives record (.ok p) →
    ∃ v n, Run record u v ∧ v.calls = u.calls ++ [.settled n n] ∧ v.kept? record = some n

theorem Move.stored (h : Move record s mover t) (hs : s.Sound record)
    (hnone : s.kept? record = none) {n : Nat} (hn : t.kept? record = some n) :
    ∃ i plugin, mover = some i ∧ s.calls[i]? = some (.linked n) ∧
      t.calls[i]? = some (.settled n n) ∧ s.Owns record i n plugin := by
  cases h with
  | enter => cases hnone.symm.trans hn
  | own i stage next host hi hm =>
      obtain ⟨rfl, rfl⟩ := hm.stored hnone hn
      obtain ⟨plugin, ho⟩ := hs.owns i n (own?_of_stage hi)
      exact ⟨i, plugin, rfl, hi, advance_self hi _ host, ho⟩
  | elsewhere host hspares => cases (hspares.kept_eq.symm.trans hn).symm.trans hnone

/-- What a description has come to keep is an instance that one of the loads has made. -/
theorem Run.kept_owns (h : Run record s t) (hs : s.Sound record) (hnone : s.kept? record = none)
    {n : Nat} (hn : t.kept? record = some n) : ∃ i plugin, t.Owns record i n plugin := by
  induction h generalizing n with
  | refl => cases hnone.symm.trans hn
  | snoc hr hm ih =>
      rename_i u _ _
      cases hkept : u.kept? record with
      | some first =>
          obtain ⟨i, plugin, ho⟩ := ih hkept
          obtain rfl := Option.some.inj ((hm.kept hkept).symm.trans hn)
          exact ⟨i, plugin, hm.owns ho⟩
      | none =>
          obtain ⟨i, plugin, _, _, _, ho⟩ := hm.stored (hr.sound hs) hkept hn
          exact ⟨i, plugin, hm.owns ho⟩

/-- A load that fails in the end never changes the host. -/
theorem Move.failed (h : Move record s mover t) (hmore : Run record t u) {i : Nat} {e : HostError}
    (hi : u.result? i = some (.error e)) (hmover : mover = some i) : t.host = s.host := by
  subst hmover
  cases h with
  | own _ stage next host hj hm =>
      cases hown : next.own? with
      | none => exact hm.host_eq hown
      | some n =>
          -- with an instance of its own a load can only succeed
          have hlinked : u.own? i = some n :=
            hmore.own_eq (by rw [own?_of_stage (advance_self hj next host), hown])
          obtain ⟨last, hlast, hresult⟩ := result?_eq_some hi
          rw [own?_of_stage hlast, LoadStage.own?_of_failed hresult] at hlinked
          cases hlinked

/-- However the loads through a description get in each other's way, and whatever happens elsewhere
meanwhile, the description keeps the first instance that is stored, every load that succeeds gives
that one, and every instance is linked once before it could be stored. -/
theorem first_stored_stays {h : Host σ} (hs : Run record ⟨h, []⟩ s) (hm : Move record s mover t)
    (hu : Run record t u) : FirstStays record s mover t u := by
  have hsound : s.Sound record := hs.sound (.none record h)
  have hlast : u.Sound record := hu.sound (hm.sound hsound)
  have hmore : Run record s u := (Run.snoc (.refl s) hm).trans hu
  constructor
  case kept =>
    intro n hn
    exact ⟨hm.kept hn, hmore.kept hn⟩
  case stored =>
    intro hnone n hn
    exact hm.stored hsound hnone hn
  case returned => exact hlast.returned
  case failed =>
    intro i e hi hmover
    exact hm.failed hu hi hmover
  case found =>
    intro i n hi hn
    refine ⟨?_, hmore.found hi hn⟩
    rintro rfl
    cases hm with
    | own _ stage next host hj hlook =>
        cases Option.some.inj (hi.symm.trans hj)
        obtain ⟨rfl, rfl⟩ := hlook.of_begun
        refine ⟨rfl, ?_⟩
        rw [advance_self hj, Host.look_of_cached hn]
  case received =>
    intro i p hi
    exact hmore.received hi (hsound.fresh i p hi)
  case owns => exact hlast.owns
  case retried =>
    intro hnone p hp
    exact Run.succeeds hnone hp

/-- A factory that loads through the description it is loaded for: the load inside stores its
instance, and the load around it gives that one although it makes another. -/
theorem first_stored_stays_inside :
    let plugin : Plugin := ⟨"Tunnel", "", "vpn", ⟨0⟩, none, fun _ => .error "none",
      fun _ => none, fun _ _ => none, fun _ => none⟩
    let info : PluginInfo := ⟨⟨"tunnel", "vpn", some "/tunnel.so", none, [], false⟩, none, rfl, rfl⟩
    let record : Record := ⟨0, info⟩
    let p := EditorPlugin.ofLibrary plugin "/tunnel.so" .released
    let h := Host.fresh ()
    let s : Loads Unit := ⟨(h.linkNew record p).2, [.loading, .linked 0]⟩
    let t : Loads Unit := ⟨(s.host.settle 0 0).2, [.loading, .settled 0 0]⟩
    let u : Loads Unit :=
      ⟨((t.host.linkNew record p).2.settle 0 1).2, [.settled 1 0, .settled 0 0]⟩
    Run record ⟨h, []⟩ s ∧ Move record s (some 1) t ∧ Run record t u ∧
      FirstStays record s (some 1) t u := by
  intro plugin info record p h s t u
  let backend : Backend Unit :=
    ⟨fun _ _ => (true, ()), fun _ _ => (.ok (), ()), fun _ _ => (.ok (.ok plugin), ()),
      fun _ _ => (), fun _ _ => ()⟩
  have hp : LoaderGives record (.ok p) :=
    ⟨Unit, ⟨"/", backend⟩, .holding [] ⟨0, 0, []⟩, "/tunnel.so", none, (), rfl, rfl⟩
  have houter : Run record ⟨h, []⟩ ⟨h, [.loading]⟩ :=
    .snoc (.snoc (.refl _) .enter) (.among .look [] [])
  have hinner : Run record ⟨h, []⟩ ⟨h, [.loading, .loading]⟩ :=
    .snoc (.snoc houter .enter) (.among .look [.loading] [])
  have hs : Run record ⟨h, []⟩ s :=
    .snoc (.snoc hinner (.among (.receive _ hp) [.loading] [])) (.among (.link p) [.loading] [])
  have hm : Move record s (some 1) t := .among (.settle 0) [.loading] []
  have hreceived : Run record t ⟨t.host, [.received p, .settled 0 0]⟩ :=
    .snoc (.refl t) (.among (.receive _ hp) [] [.settled 0 0])
  have hu : Run record t u :=
    .snoc (.snoc hreceived (.among (.link p) [] [.settled 0 0]))
      (.among (.settle 1) [] [.settled 0 0])
  exact ⟨hs, hm, hu, first_stored_stays hs hm hu⟩

end Loads

end PluginHost
