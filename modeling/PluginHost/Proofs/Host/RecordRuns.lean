import PluginHost.Proofs.Host.FirstStored
import PluginHost.Proofs.Loader.References
import PluginHost.Script.Modules
import PluginHost.System.Libraries

/-! # A host's own loads

A host loads through a description in one go, and factories may do the same meanwhile. Such a load
is a run of loads that move one at a time, so what is true of those is true of it. -/

namespace PluginHost

variable {σ : Type}

/-! ## What a load does to its machine -/

/-- Everything that a backend does takes the machine from one state to a related one. -/
structure Backend.Respects (backend : Backend σ) (R : σ → σ → Prop) : Prop where
  probe (path s) : R s (backend.probe path s).2
  map (path s) : R s (backend.map path s).2
  instantiate (path s) : R s (backend.instantiate path s).2
  release (path s) : R s (backend.release path s)
  keep (path s) : R s (backend.keep path s)

section

variable {backend : Backend σ} {R : σ → σ → Prop} {fs : FileSystem} {name path : String}
  {options : LoadOptions σ} {state : σ}

theorem Clears.state_eq {probed cleared : σ} {clearance : List LoadStep}
    (h : Clears fs options path probed clearance cleared)
    (hrules : options.rules.Leaves (id : σ → σ)) : cleared = probed := by
  cases h with
  | vetted cleared hc hv => simpa [hv] using vet_leaves hrules fs path probed
  | waived => rfl

theorem Reaches.respects {residency : Residency} {steps : List LoadStep} {reached : σ}
    (h : Reaches backend fs options path state residency steps reached)
    (htrans : ∀ {a b c}, R a b → R b c → R a c) (hb : backend.Respects R)
    (hrules : options.rules.Leaves (id : σ → σ)) : R state reached := by
  have hprobe := hb.probe path state
  cases h with
  | resident probed hp => rwa [hp] at hprobe
  | mapped probed clearance cleared reached hp hc hm =>
      obtain rfl := hc.state_eq hrules
      have hmap := hb.map path cleared
      rw [hp] at hprobe
      rw [hm] at hmap
      exact htrans hprobe hmap

theorem LoadRule.respects {report : LoadReport σ}
    (h : LoadRule backend fs name path options state report) (hrefl : ∀ a, R a a)
    (htrans : ∀ {a b c}, R a b → R b c → R a c) (hb : backend.Respects R)
    (hrules : options.rules.Leaves (id : σ → σ)) : R state report.state := by
  have hprobe := hb.probe path state
  cases h with
  | nameless => exact hrefl state
  | refused probed e after hn hp hc hv =>
      have hvetted := vet_leaves hrules fs path probed
      rw [hp] at hprobe
      rw [hv] at hvetted
      exact htrans hprobe (by rw [show after = probed from hvetted]; exact hrefl probed)
  | unmapped probed clearance cleared reason after hn hp hc hm =>
      obtain rfl := hc.state_eq hrules
      have hmap := hb.map path cleared
      rw [hp] at hprobe
      rw [hm] at hmap
      exact htrans hprobe hmap
  | withoutFactory residency steps reached reason after hn hr hi =>
      have hran := hb.instantiate path reached
      rw [hi] at hran
      exact htrans (htrans (hr.respects htrans hb hrules) hran) (hb.release path after)
  | ran residency steps reached outcome after hn hr hi =>
      have hran := hb.instantiate path reached
      rw [hi] at hran
      refine htrans (htrans (hr.respects htrans hb hrules) hran) ?_
      cases hr with
      | resident => exact hb.release path after
      | mapped => exact hb.keep path after

end

/-! ## Hosts that loads lead to -/

namespace Host

/-- Loads through the description lead from one host to the other, whichever are under way. -/
def Joins (record : Record) (h after : Host σ) : Prop :=
  ∀ calls, ∃ more, Loads.Run record ⟨h, calls⟩ ⟨after, calls ++ more⟩

variable {record other : Record} {h after last : Host σ} {loader : PluginLoader (Host σ)}
  {fs : FileSystem} {owner : Option Nat}

theorem Joins.refl (record : Record) (h : Host σ) : Joins record h h := by
  intro calls
  exact ⟨[], by simpa using Loads.Run.refl ⟨h, calls⟩⟩

theorem Joins.trans (hfirst : Joins record h after) (hmore : Joins record after last) :
    Joins record h last := by
  intro calls
  obtain ⟨first, hrun⟩ := hfirst calls
  obtain ⟨more, hrest⟩ := hmore (calls ++ first)
  exact ⟨first ++ more, by simpa using hrun.trans hrest⟩

/-- What neither touches the instances nor what the description keeps happens elsewhere. -/
theorem joins_of_prefix (hkept : after.cached? record.id = h.cached? record.id)
    (hinstances : h.instances <+: after.instances) : Joins record h after := by
  intro calls
  have hspares : (Loads.mk h calls).Spares record after := by
    refine ⟨hkept, ?_⟩
    intro i n p _ hp
    obtain ⟨newer, hnewer⟩ := hinstances
    obtain ⟨hlt, _⟩ := List.getElem?_eq_some_iff.mp hp
    exact ⟨p, by rw [← hnewer, List.getElem?_append_left hlt, hp], rfl, rfl, rfl⟩
  exact ⟨[], by simpa using Loads.Run.snoc (.refl _) (.elsewhere after hspares)⟩

theorem cached?_settle_other {id kept : Nat} (hid : id ≠ kept) (h : Host σ) (number : Nat) :
    (h.settle kept number).2.cached? id = h.cached? id := by
  cases hc : h.cached? kept with
  | some first => rw [settle_of_cached hc]
  | none =>
      rw [settle_of_none hc]
      simp [cached?, List.lookup_append, beq_false_of_ne hid]

@[simp] theorem records_finishLoad (h : Host σ) (record : Record) (p : EditorPlugin) :
    (h.finishLoad record p).2.records = h.records := by
  rw [finishLoad_eq, settle]
  split <;> rfl

theorem joins_finishLoad_other (hid : other.id ≠ record.id) (p : EditorPlugin) :
    Joins record h (h.finishLoad other p).2 := by
  rw [finishLoad_eq]
  apply joins_of_prefix
  · rw [cached?_settle_other hid.symm, cached?_linkNew]
  · rw [instances_settle, instances_linkNew]
    exact List.prefix_append _ _

/-- The library's load leads from the host to the one that it leaves. -/
def LoaderJoins (record other : Record) (loader : PluginLoader (Host σ)) (fs : FileSystem)
    (owner : Option Nat) (h : Host σ) : Prop :=
  ∀ library, other.info.plugin = some library → Joins record h
    (loader.loadFile fs library (some other.info.service) ⟨owner, none⟩ h).state

/-- A load in one go is a run of loads, of which it is the first to begin. -/
theorem loadRecord_run (hjoins : LoaderJoins record record loader fs owner h)
    (calls : List LoadStage) :
    ∃ stage more, Loads.Run record ⟨h, calls⟩
        ⟨(loadRecord loader fs record owner h).host, calls ++ stage :: more⟩ ∧
      stage.result? = some (loadRecord loader fs record owner h).result := by
  have hlooked : Loads.Run record ⟨h, calls⟩ ⟨h, calls ++ [h.look record]⟩ :=
    .snoc (.snoc (.refl _) .enter) (.among .look calls [])
  unfold loadRecord
  cases hc : h.cached? record.id with
  | some n =>
      rw [look_of_cached hc] at hlooked
      exact ⟨.found n, [], hlooked, rfl⟩
  | none =>
      cases hlibrary : record.info.plugin with
      | none =>
          simp only [look, hc, hlibrary] at hlooked
          exact ⟨_, [], hlooked, rfl⟩
      | some library =>
          simp only [look, hc, hlibrary] at hlooked
          obtain ⟨more, hloaded⟩ := hjoins library hlibrary (calls ++ [.loading])
          rw [List.append_assoc, List.singleton_append] at hloaded
          have hgives : LoaderGives record _ :=
            ⟨_, loader, fs, library, owner, h, hlibrary, rfl⟩
          have hreceived := (hlooked.trans hloaded).snoc (.among (.receive _ hgives) calls more)
          simp only
          split
          · rename_i e he
            rw [he] at hreceived
            exact ⟨_, more, hreceived, rfl⟩
          · rename_i p hp
            rw [hp] at hreceived
            have hown := hreceived.snoc (.among (.link p) calls more)
            exact ⟨_, more, hown.snoc (.among (.settle _) calls more), rfl⟩

theorem Joins.loadRecord (hjoins : LoaderJoins record record loader fs owner h) :
    Joins record h (loadRecord loader fs record owner h).host := by
  intro calls
  obtain ⟨stage, more, hrun, _⟩ := loadRecord_run hjoins calls
  exact ⟨stage :: more, hrun⟩

/-- To the loads through one description, a load through another one happens elsewhere. -/
theorem Joins.loadRecord_other (hid : other.id ≠ record.id)
    (hjoins : LoaderJoins record other loader fs owner h) :
    Joins record h (Host.loadRecord loader fs other owner h).host := by
  unfold Host.loadRecord
  split
  · exact .refl record h
  · split
    · exact .refl record h
    · rename_i library hlibrary
      have hloaded := hjoins library hlibrary
      simp only
      split
      · exact hloaded
      · exact hloaded.trans (joins_finishLoad_other hid _)

/-- The instance that a load in one go gives is the one that the description keeps from then on. -/
theorem cached?_loadRecord (hjoins : LoaderJoins record record loader fs owner h) {n : Nat}
    (hn : (Host.loadRecord loader fs record owner h).result = .ok n) :
    (Host.loadRecord loader fs record owner h).host.cached? record.id = some n := by
  obtain ⟨stage, more, hrun, hresult⟩ := loadRecord_run hjoins []
  refine (hrun.sound (.none record h)).returned 0 n ?_
  rw [Loads.result?, List.nil_append, List.getElem?_cons_zero, Option.bind_some, hresult, hn]

theorem loadRecord_of_cached {n : Nat} (hn : h.cached? record.id = some n)
    (loader : PluginLoader (Host σ)) (fs : FileSystem) (owner : Option Nat) :
    Host.loadRecord loader fs record owner h = ⟨[], .ok n, h⟩ := by
  simp only [Host.loadRecord, hn]

theorem Joins.kept (hjoins : Joins record h after) {n : Nat}
    (hn : h.cached? record.id = some n) : after.cached? record.id = some n := by
  obtain ⟨_, hrun⟩ := hjoins []
  exact hrun.kept hn

theorem Joins.linkedOnce (hjoins : Joins record h after) (hnone : h.cached? record.id = none)
    {n : Nat} (hn : after.cached? record.id = some n) :
    ∃ p, after.instances[n]? = some p ∧ p.LinkedOnce record := by
  obtain ⟨_, hrun⟩ := hjoins []
  obtain ⟨_, _, _, p, hp, _, hlinked⟩ := hrun.kept_owns (.none record h) hnone hn
  exact ⟨p, hp, hlinked⟩

/-- What a load in one go makes of its description: the instance that it gives is kept, and none
other ever will be. -/
structure KeepsFirst (record : Record) (h : Host σ) (report : RecordReport σ) : Prop where
  /-- An instance that was kept before is given, and nothing is done for it. -/
  found : ∀ n, h.cached? record.id = some n → report = ⟨[], .ok n, h⟩
  given : ∀ n, report.result = .ok n → report.host.cached? record.id = some n
  /-- Whoever made the instance linked it to the description before it was kept, once. -/
  linked : h.cached? record.id = none → ∀ n, report.host.cached? record.id = some n →
    ∃ p, report.host.instances[n]? = some p ∧ p.LinkedOnce record
  /-- All later loads give the instance, whatever loads there are meanwhile. -/
  stays : ∀ n, report.host.cached? record.id = some n → ∀ last, Joins record report.host last →
    ∀ loader fs owner, Host.loadRecord loader fs record owner last = ⟨[], .ok n, last⟩

theorem loadRecord_keepsFirst (hjoins : LoaderJoins record record loader fs owner h) :
    KeepsFirst record h (Host.loadRecord loader fs record owner h) := by
  constructor
  case found =>
    intro n hn
    exact loadRecord_of_cached hn loader fs owner
  case given =>
    intro n hn
    exact cached?_loadRecord hjoins hn
  case linked =>
    intro hnone n hn
    exact (Joins.loadRecord hjoins).linkedOnce hnone hn
  case stays =>
    intro n hn last hlast loader fs owner
    exact loadRecord_of_cached (hlast.kept hn) loader fs owner

end Host

/-! ## The libraries of a machine -/

namespace Libraries

/-- A load changes nothing of a host but its machine. -/
theorem state_loadFile (directory : String) (files fs : FileSystem) (name : String)
    (service : Option String) (owner : Option Nat) (h : Host Libraries) :
    ∃ machine, ((loader directory files).loadFile fs name service ⟨owner, none⟩ h).state =
      { h with machine := machine } := by
  have hb : (loader directory files).backend.Respects fun h after : Host Libraries =>
      ∃ machine, after = { h with machine := machine } :=
    ⟨fun _ _ => ⟨_, rfl⟩, fun _ _ => ⟨_, rfl⟩, fun _ _ => ⟨_, rfl⟩, fun _ _ => ⟨_, rfl⟩,
      fun _ _ => ⟨_, rfl⟩⟩
  refine (load_rule (loader directory files) fs name _ h).respects
    (fun h => ⟨h.machine, rfl⟩) ?_ hb (by simp [VettingRules.Leaves])
  rintro _ _ _ ⟨first, rfl⟩ ⟨second, rfl⟩
  exact ⟨second, rfl⟩

theorem loaderJoins (directory : String) (files fs : FileSystem) (record : Record)
    (owner : Option Nat) (h : Host Libraries) :
    Host.LoaderJoins record record (loader directory files) fs owner h := by
  intro library _
  obtain ⟨machine, hstate⟩ :=
    state_loadFile directory files fs library (some record.info.service) owner h
  rw [hstate]
  exact Host.joins_of_prefix rfl (List.prefix_refl _)

/-- A load of a host on a machine is a run of loads. -/
theorem loadRecord_run (directory : String) (files fs : FileSystem) (record : Record)
    (owner : Option Nat) (h : Host Libraries) (calls : List LoadStage) :
    let report := Host.loadRecord (loader directory files) fs record owner h
    ∃ stage more, Loads.Run record ⟨h, calls⟩ ⟨report.host, calls ++ stage :: more⟩ ∧
      stage.result? = some report.result :=
  Host.loadRecord_run (loaderJoins directory files fs record owner h) calls

/-- On a machine a description keeps the first instance that a load through it gives. -/
theorem loadRecord_keepsFirst (directory : String) (files fs : FileSystem) (record : Record)
    (owner : Option Nat) (h : Host Libraries) :
    Host.KeepsFirst record h (Host.loadRecord (loader directory files) fs record owner h) :=
  Host.loadRecord_keepsFirst (loaderJoins directory files fs record owner h)

/-- A load that fails leaves the host as it was, its machine apart. -/
theorem loadRecord_failed {directory : String} {files fs : FileSystem} {record : Record}
    {owner : Option Nat} {h : Host Libraries} {e : HostError}
    (he : (Host.loadRecord (loader directory files) fs record owner h).result = .error e) :
    ∃ machine, (Host.loadRecord (loader directory files) fs record owner h).host =
      { h with machine := machine } := by
  cases hcached : h.cached? record.id with
  | some n =>
      rw [Host.loadRecord_of_cached hcached] at he
      cases he
  | none =>
      cases hlibrary : record.info.plugin with
      | none => exact ⟨h.machine, by simp only [Host.loadRecord, hcached, hlibrary]⟩
      | some library =>
          obtain ⟨machine, hstate⟩ :=
            state_loadFile directory files fs library (some record.info.service) owner h
          refine ⟨machine, ?_⟩
          simp only [Host.loadRecord, hcached, hlibrary] at he ⊢
          cases hresult : ((loader directory files).loadFile fs library
              (some record.info.service) ⟨owner, none⟩ h).result with
          | error e' => simp only [hstate]
          | ok p =>
              rw [hresult] at he
              cases he

end Libraries

/-! ## Scripted libraries -/

namespace Script

/-- The description is the only one of its number among those that are held under names. -/
def Known (record : Record) (h : Host Modules) : Prop :=
  ∀ name other, List.lookup name h.records = some other → other.id = record.id → other = record

/-- Loads lead from one host to the other, if the host knows the description. No load gives
descriptions up. -/
structure Joins (record : Record) (h after : Host Modules) : Prop where
  records_eq : after.records = h.records
  joins : Known record h → Host.Joins record h after

theorem Joins.refl (record : Record) (h : Host Modules) : Joins record h h :=
  ⟨rfl, fun _ => .refl record h⟩

theorem Joins.trans {record : Record} {h after last : Host Modules}
    (hfirst : Joins record h after) (hmore : Joins record after last) :
    Joins record h last := by
  refine ⟨hmore.records_eq.trans hfirst.records_eq, ?_⟩
  intro hknown
  refine (hfirst.joins hknown).trans (hmore.joins ?_)
  rwa [Known, hfirst.records_eq]

/-- Notes and what becomes of the libraries happen elsewhere. -/
theorem Joins.noted (record : Record) (h : Host Modules) (journal : List Event)
    (machine : Modules) :
    Joins record h { h with journal := journal, machine := machine } :=
  ⟨rfl, fun _ => Host.joins_of_prefix rfl (List.prefix_refl _)⟩

theorem runFactory_joins {load : Record → Host Modules → Host.RecordReport Modules}
    {record : Record} (path : String) (h : Host Modules)
    (hload : ∀ name other after, List.lookup name after.records = some other →
      Joins record after (load other after).host) :
    Joins record h (runFactory load path h).2 := by
  have hnoted := Joins.noted record h (h.note (.instantiated path)).journal
    { h.machine with tried := path :: h.machine.tried }
  unfold runFactory
  simp only
  split
  · exact hnoted
  · split
    · exact hnoted
    · split
      · rename_i other _ hother
        obtain ⟨name, _, hname⟩ := Option.bind_eq_some_iff.mp hother
        have hloaded := hnoted.trans (hload name other _ hname)
        exact hloaded.trans (.noted record _ _ _)
      · exact hnoted

theorem backendWith_joins {load : Record → Host Modules → Host.RecordReport Modules}
    {record : Record}
    (hload : ∀ name other h, List.lookup name h.records = some other →
      Joins record h (load other h).host) :
    (backendWith load).Respects (Joins record) := by
  constructor
  case probe => intro path h; exact .noted record h _ _
  case map => intro path h; exact .noted record h _ _
  case instantiate => intro path h; exact runFactory_joins path h hload
  case release => intro path h; exact .noted record h _ _
  case keep => intro path h; exact .noted record h _ _

theorem loadFile_joins {loader : PluginLoader (Host Modules)} {record : Record}
    (hb : loader.backend.Respects (Joins record)) (fs : FileSystem) (library : String)
    (service : Option String) (owner : Option Nat) (h : Host Modules) :
    Joins record h (loader.loadFile fs library service ⟨owner, none⟩ h).state :=
  (load_rule loader fs library _ h).respects (.refl record) .trans hb
    (by simp [VettingRules.Leaves])

theorem loadRecord_joins {loader : PluginLoader (Host Modules)} {record : Record}
    (hb : loader.backend.Respects (Joins record)) (fs : FileSystem) (owner : Option Nat)
    {name : String} {other : Record} {h : Host Modules}
    (hother : List.lookup name h.records = some other) :
    Joins record h (Host.loadRecord loader fs other owner h).host := by
  refine ⟨?_, ?_⟩
  · unfold Host.loadRecord
    split
    · rfl
    · split
      · rfl
      · rename_i library _
        have hloaded := (loadFile_joins hb fs library (some other.info.service) owner h).records_eq
        simp only
        split
        · exact hloaded
        · rw [Host.records_finishLoad, hloaded]
  · intro hknown
    have hjoins : Host.LoaderJoins record other loader fs owner h := by
      intro library _
      exact (loadFile_joins hb fs library _ owner h).joins hknown
    by_cases hid : other.id = record.id
    · obtain rfl := hknown name other hother hid
      exact .loadRecord hjoins
    · exact .loadRecord_other hid hjoins

theorem backendTo_joins (directory : String) (fs : FileSystem) (record : Record) (depth : Nat) :
    (backendTo directory fs depth).Respects (Joins record) := by
  induction depth with
  | zero => exact backendWith_joins fun _ _ h _ => .refl record h
  | succ depth ih =>
      refine backendWith_joins ?_
      intro name other h hother
      exact loadRecord_joins ih fs none hother

theorem loaderJoins (directory : String) (files fs : FileSystem)
    (scripts : List (String × ModuleScript)) {record : Record} (owner : Option Nat)
    {h : Host Modules} (hknown : Known record h) :
    Host.LoaderJoins record record (loader directory files scripts) fs owner h := by
  intro library _
  have hb : (loader directory files scripts).backend.Respects (Joins record) :=
    backendTo_joins directory files record scripts.length
  exact (loadFile_joins hb fs library _ owner h).joins hknown

/-- A load of scripted libraries is a run of loads, also where factories load. -/
theorem loadRecord_run (directory : String) (files fs : FileSystem)
    (scripts : List (String × ModuleScript)) (record : Record) (owner : Option Nat)
    {h : Host Modules} (hknown : Known record h) (calls : List LoadStage) :
    let report := Host.loadRecord (loader directory files scripts) fs record owner h
    ∃ stage more, Loads.Run record ⟨h, calls⟩ ⟨report.host, calls ++ stage :: more⟩ ∧
      stage.result? = some report.result :=
  Host.loadRecord_run (loaderJoins directory files fs scripts owner hknown) calls

/-- Also where factories load through it, a description keeps the first instance that a load
gives. -/
theorem loadRecord_keepsFirst (directory : String) (files fs : FileSystem)
    (scripts : List (String × ModuleScript)) (record : Record) (owner : Option Nat)
    {h : Host Modules} (hknown : Known record h) :
    Host.KeepsFirst record h
      (Host.loadRecord (loader directory files scripts) fs record owner h) :=
  Host.loadRecord_keepsFirst (loaderJoins directory files fs scripts owner hknown)

end Script

end PluginHost
