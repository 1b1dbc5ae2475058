import PluginHost.Proofs.CommandLine.Openings
import PluginHost.Proofs.Host.RecordRuns
import PluginHost.Proofs.Info.Lookup
import PluginHost.Proofs.Loader.Settling
import PluginHost.Proofs.Results

/-! # The plugin that an argument stands for

The argument of a command may be a name, a service, an alias and a path, all at once. Which of them
counts is settled before anything is loaded; what fails after that fails the command. -/

namespace PluginHost

namespace Catalog

/-- The argument stands for the description: as its name, as its service if it is nobody's name,
or as an alias if it is nobody's name or service and no alias of an earlier description. -/
inductive StandsFor (c : Catalog) (argument : String) : Record → Prop where
  | byName (r) (hr : r ∈ c.records) (hname : r.info.name = argument) : StandsFor c argument r
  | byService (r) (hr : r ∈ c.records) (hservice : r.info.service = argument)
      (hnone : ∀ q ∈ c.records, q.info.name ≠ argument) : StandsFor c argument r
  | byAlias (before r after) (hrecords : c.records = before ++ r :: after)
      (halias : argument ∈ r.info.aliases) (hfirst : ∀ q ∈ before, argument ∉ q.info.aliases)
      (hnone : ∀ q ∈ c.records, q.info.name ≠ argument)
      (hother : ∀ q ∈ c.records, q.info.service ≠ argument) : StandsFor c argument r

/-- The argument is neither a name nor a service nor an alias of any description. -/
def Unknown (c : Catalog) (argument : String) : Prop :=
  ∀ q ∈ c.records, q.info.name ≠ argument ∧ q.info.service ≠ argument ∧ argument ∉ q.info.aliases

variable {c : Catalog} {argument : String} {r : Record}

theorem findByName?_eq_none (h : ∀ q ∈ c.records, q.info.name ≠ argument) :
    c.findByName? argument = none := by
  simpa [findByName?] using h

theorem StandsFor.mem (h : c.StandsFor argument r) : r ∈ c.records := by
  cases h with
  | byName _ hr => exact hr
  | byService _ hr => exact hr
  | byAlias before _ after hrecords => simp [hrecords]

theorem StandsFor.found (h : c.StandsFor argument r) :
    (c.findByName? argument <|> c.findByService? argument) = some r := by
  cases h with
  | byName _ hr hname =>
      rw [findByName?_eq_some_iff.mpr ⟨hr, hname⟩]
      rfl
  | byService _ hr hservice hnone =>
      rw [findByName?_eq_none hnone, ← hservice, findByService?_of_service hr]
      rfl
  | byAlias before _ after hrecords halias hfirst hnone hother =>
      rw [findByName?_eq_none hnone, findByService?_of_alias hrecords hother halias hfirst]
      rfl

theorem Unknown.not_found (h : c.Unknown argument) :
    (c.findByName? argument <|> c.findByService? argument) = none := by
  have hservice : c.findByService? argument = none := by
    rw [findByService?_eq_none_iff]
    intro q hq
    simp [PluginInfo.supports, h q hq]
  rw [findByName?_eq_none fun q hq => (h q hq).1, hservice]
  rfl

/-- Every argument stands for a description or is unknown. -/
theorem standsFor_or_unknown (c : Catalog) (argument : String) :
    (∃ r, c.StandsFor argument r) ∨ c.Unknown argument := by
  by_cases hname : ∃ r ∈ c.records, r.info.name = argument
  · obtain ⟨r, hr, hname⟩ := hname
    exact .inl ⟨r, .byName r hr hname⟩
  have hnone : ∀ q ∈ c.records, q.info.name ≠ argument := fun q hq h => hname ⟨q, hq, h⟩
  by_cases hservice : ∃ r ∈ c.records, r.info.service = argument
  · obtain ⟨r, hr, hservice⟩ := hservice
    exact .inl ⟨r, .byService r hr hservice hnone⟩
  have hother : ∀ q ∈ c.records, q.info.service ≠ argument := fun q hq h => hservice ⟨q, hq, h⟩
  cases hfirst : c.records.find? fun q => q.info.aliases.contains argument with
  | some r =>
      obtain ⟨halias, before, after, hrecords, hearlier⟩ := List.find?_eq_some_iff_append.mp hfirst
      exact .inl ⟨r, .byAlias before r after hrecords (by simpa using halias)
        (by simpa using hearlier) hnone hother⟩
  | none =>
      refine .inr fun q hq => ⟨hnone q hq, hother q hq, ?_⟩
      simpa using List.find?_eq_none.mp hfirst q hq

end Catalog

/-! ## Loads through a description that keeps nothing -/

namespace Host

variable {h : Host Libraries} {r : Record} {directory library : String} {files : FileSystem}
  {owner : Option Nat}

/-- A load through a description gives an instance of the plugin that is linked to the
description. -/
structure LinksNew (r : Record) (p : EditorPlugin) (report : RecordReport Libraries)
    (number : Nat) (q : EditorPlugin) : Prop where
  result_eq : report.result = .ok number
  instance_eq : report.host.instances[number]? = some q
  plugin_eq : q.plugin = p.plugin
  linked : report.host.linkedRecord? q = some r

theorem Numbered.linksNew (hh : h.Numbered) (hr : r ∈ h.liveRecords)
    (hnone : h.cached? r.id = none) (hlibrary : r.info.plugin = some library) {p : EditorPlugin}
    (hp : ((Libraries.loader directory files).loadFile files library (some r.info.service)
      ⟨owner, none⟩ h).result = .ok p) :
    ∃ number q, LinksNew r p (loadRecord (Libraries.loader directory files) files r owner h)
      number q := by
  obtain ⟨machine, hstate⟩ :=
    Libraries.state_loadFile directory files files library (some r.info.service) owner h
  let report := loadRecord (Libraries.loader directory files) files r owner h
  let q := p.setRecord (fun _ => true) (some (h.linkedAs r))
  let after : Host Libraries := { h with
    machine := machine
    instances := h.instances ++ [q]
    caches := h.caches ++ [(r.id, h.instances.length)] }
  have hreport : report.result = .ok h.instances.length ∧ report.host = after := by
    have hcached : (({ h with machine := machine } : Host Libraries).linkNew r p).2.cached? r.id =
        none := hnone
    simp only [report, loadRecord, hnone, hlibrary, hp, hstate, finishLoad_eq,
      settle_of_none hcached]
    exact ⟨rfl, rfl⟩
  have hlinked : after.linkedRecord? q = some r := by
    have hafter : after.Numbered := hh.of_fewer (fun _ hlive => hlive) rfl
    rw [hafter.linkedRecord?_eq_iff hr, EditorPlugin.link_setRecord]
    exact p.link.isLinkedTo_set _ r.id
  refine ⟨h.instances.length, q, ?_⟩
  constructor
  case result_eq => exact hreport.1
  case instance_eq =>
    rw [hreport.2]
    exact List.getElem?_concat_length
  case plugin_eq =>
    have hfresh := (load_rule (Libraries.loader directory files) files library _ h).fresh hp
    rw [show q = _ from hfresh.setRecord _ _]
    rfl
  case linked =>
    rw [hreport.2]
    exact hlinked

end Host

namespace CommandLine

variable {s : Surroundings} {arguments : List String} {options : Options} {request : Request}
  {argument : String} {config : Config} {h : Host Libraries}

/-! ## Runs about a plugin -/

theorem run_of_plugin (hread : read arguments = .run options request)
    (hargument : request.plugin? = some argument) (hconfig : settings s options = some (.ok config))
    (hopen : openHost s config = some (.ok h)) :
    let opened := openPlugin s config h argument
    run s arguments =
      Part.outcome ⟨opened.steps, opened.result.bind fun p =>
        pluginReport options.json p request⟩ := by
  have hpart : perform s options request =
      some ⟨(openPlugin s config h argument).steps,
        (openPlugin s config h argument).result.bind fun p =>
          pluginReport options.json p request⟩ := by
    simp [perform, answer, hconfig, hopen, hargument, bind, Option.bind]
  simp only [run, hread, hpart]

/-- The argument has a slash in it or ends as names of libraries do. -/
theorem namesLibrary_iff (argument : String) :
    namesLibrary argument = true ↔
      '/' ∈ argument.toList ∨ ∃ stem, argument = stem ++ ".so" := by
  have hsuffix : librarySuffix <:+ argument.toList ↔ ∃ stem, argument = stem ++ ".so" := by
    constructor
    · rintro ⟨cs, hcs⟩
      refine ⟨String.ofList cs, String.toList_inj.mp ?_⟩
      rw [← hcs]
      simp [librarySuffix]
    · rintro ⟨stem, rfl⟩
      exact ⟨stem.toList, by simp [librarySuffix]⟩
  simp [namesLibrary, ← hsuffix]

def loadLibrary (s : Surroundings) (config : Config) (h : Host Libraries) (library : String)
    (service : Option String) : LoadReport (Host Libraries) :=
  (Libraries.loader config.pluginDirectory s.files).loadFile s.files library service
    ⟨config.requiredOwner s.user, none⟩ h

def loadDescribed (s : Surroundings) (config : Config) (h : Host Libraries) (r : Record) :
    Host.RecordReport Libraries :=
  Host.loadRecord (Libraries.loader config.pluginDirectory s.files) s.files r
    (config.requiredOwner s.user) h

/-- How a plugin is opened. Every part is for what the argument stands for, and there is no way from
one part to another. -/
structure Opens (s : Surroundings) (config : Config) (h : Host Libraries) (argument : String)
    (opened : Part EditorPlugin) : Prop where
  without_library : ∀ r, h.catalog.StandsFor argument r → r.info.plugin = none →
    opened = ⟨[], .error (.during (.loadDescribed r.info.name) (Host.noLibrary r.info))⟩
  /-- A description's library that fails to load fails the command. -/
  described_error : ∀ r library e, h.catalog.StandsFor argument r → r.info.plugin = some library →
    (loadLibrary s config h library (some r.info.service)).result = .error e →
      opened = ⟨(loadLibrary s config h library (some r.info.service)).steps,
        .error (.during (.loadDescribed r.info.name) e)⟩
  described_ok : ∀ r library p, h.catalog.StandsFor argument r → r.info.plugin = some library →
    (loadLibrary s config h library (some r.info.service)).result = .ok p →
      ∃ number q, Host.LinksNew r p (loadDescribed s config h r) number q ∧
        q.plugin.service = r.info.service ∧
        opened = ⟨(loadLibrary s config h library (some r.info.service)).steps, .ok q⟩
  library : h.catalog.Unknown argument →
    ('/' ∈ argument.toList ∨ ∃ stem, argument = stem ++ ".so") →
      opened = ⟨(loadLibrary s config h argument none).steps,
        (loadLibrary s config h argument none).result.mapError
          (.during (.loadLibrary argument))⟩
  unknown : h.catalog.Unknown argument →
    ¬ ('/' ∈ argument.toList ∨ ∃ stem, argument = stem ++ ".so") →
      opened = ⟨[], .error (.unknownPlugin argument)⟩
  /-- No file is touched but the one that the library's name stands for. -/
  one_file : ∀ step ∈ opened.steps, ∃ library,
    (h.catalog.Unknown argument ∧ library = argument ∨
      ∃ r, h.catalog.StandsFor argument r ∧ r.info.plugin = some library) ∧
    step.path = resolveName config.pluginDirectory library true

/-! ## How a plugin is opened -/

theorem openPlugin_of_standsFor {r : Record} (hr : h.catalog.StandsFor argument r) :
    openPlugin s config h argument =
      let report := loadDescribed s config h r
      ⟨report.steps, match report.result with
        | .error e => .error (.during (.loadDescribed r.info.name) e)
        | .ok number =>
          match report.host.instances[number]? with
          | some p => .ok p
          | none => .error (.unknownPlugin argument)⟩ := by
  simp only [openPlugin, hr.found]
  rfl

theorem openPlugin_of_unknown (hnone : h.catalog.Unknown argument) :
    openPlugin s config h argument =
      if namesLibrary argument then
        ⟨(loadLibrary s config h argument none).steps,
          (loadLibrary s config h argument none).result.mapError (.during (.loadLibrary argument))⟩
      else ⟨[], .error (.unknownPlugin argument)⟩ := by
  simp only [openPlugin, hnone.not_found]
  rfl

/-- A host that has only read descriptions keeps no instance, and knows each by its number. -/
theorem openHost_eq_ok (hopen : openHost s config = some (.ok h)) :
    h.Numbered ∧ ∀ record, h.cached? record = none := by
  have hscan := scan_of_openHost hopen
  refine ⟨(Host.numbered_fresh s.libraries).scan hscan, fun record => ?_⟩
  obtain ⟨_, _, rfl⟩ := Host.scan_eq_ok hscan
  rfl

theorem steps_loadDescribed {r : Record} {library : String} (hnone : h.cached? r.id = none)
    (hlibrary : r.info.plugin = some library) :
    (loadDescribed s config h r).steps =
      (loadLibrary s config h library (some r.info.service)).steps := by
  simp only [loadDescribed, loadLibrary, Host.loadRecord, hnone, hlibrary]
  split <;> rfl

theorem result_loadDescribed {r : Record} {library : String} {e : HostError}
    (hnone : h.cached? r.id = none) (hlibrary : r.info.plugin = some library)
    (he : (loadLibrary s config h library (some r.info.service)).result = .error e) :
    (loadDescribed s config h r).result = .error e := by
  rw [loadLibrary] at he
  simp only [loadDescribed, Host.loadRecord, hnone, hlibrary, he]

theorem loadLibrary_staged (s : Surroundings) (config : Config) (h : Host Libraries)
    (library : String) (service : Option String) :
    let loader := Libraries.loader config.pluginDirectory s.files
    let r : LoadRequest (Host Libraries) :=
      ⟨s.files, config.pluginDirectory, library, true, service,
        ⟨config.requiredOwner s.user, none⟩⟩
    Staged loader.backend r h (r.course loader.backend h)
      (loadLibrary s config h library service) :=
  (load_rule (Libraries.loader config.pluginDirectory s.files) s.files library _ h).ends.staged

theorem path_of_mem_loadLibrary {library : String} {service : Option String} {step : LoadStep}
    (hstep : step ∈ (loadLibrary s config h library service).steps) :
    step.path = resolveName config.pluginDirectory library true :=
  (loadLibrary_staged s config h library service).same_file step hstep

theorem service_of_loadLibrary {library service : String} {p : EditorPlugin}
    (hp : (loadLibrary s config h library (some service)).result = .ok p) :
    p.plugin.service = service := by
  obtain ⟨plugin, hadmits, rfl⟩ :=
    ((loadLibrary_staged s config h library (some service)).ok_iff p).mp hp
  exact hadmits.serves service rfl

theorem path_of_mem_openPlugin {step : LoadStep} (hempty : ∀ record, h.cached? record = none)
    (hstep : step ∈ (openPlugin s config h argument).steps) :
    ∃ library,
      (h.catalog.Unknown argument ∧ library = argument ∨
        ∃ r, h.catalog.StandsFor argument r ∧ r.info.plugin = some library) ∧
      step.path = resolveName config.pluginDirectory library true := by
  rcases h.catalog.standsFor_or_unknown argument with ⟨r, hr⟩ | hnone
  · rw [openPlugin_of_standsFor hr] at hstep
    cases hlibrary : r.info.plugin with
    | none => simp [loadDescribed, Host.loadRecord, hempty, hlibrary] at hstep
    | some library =>
        simp only [steps_loadDescribed (hempty _) hlibrary] at hstep
        exact ⟨library, .inr ⟨r, hr, hlibrary⟩, path_of_mem_loadLibrary hstep⟩
  · rw [openPlugin_of_unknown hnone] at hstep
    split at hstep
    · exact ⟨argument, .inl ⟨hnone, rfl⟩, path_of_mem_loadLibrary hstep⟩
    · cases hstep

theorem openPlugin_opens (hopen : openHost s config = some (.ok h)) (argument : String) :
    Opens s config h argument (openPlugin s config h argument) := by
  obtain ⟨hnumbered, hempty⟩ := openHost_eq_ok hopen
  constructor
  case without_library =>
    intro r hr hnone
    rw [openPlugin_of_standsFor hr]
    simp only [loadDescribed, Host.loadRecord, hempty, hnone]
  case described_error =>
    intro r library e hr hlibrary he
    simp only [openPlugin_of_standsFor hr, steps_loadDescribed (hempty _) hlibrary,
      result_loadDescribed (hempty _) hlibrary he]
  case described_ok =>
    intro r library p hr hlibrary hp
    obtain ⟨number, q, hq⟩ :=
      hnumbered.linksNew (Host.mem_liveRecords.mpr (.inr hr.mem)) (hempty _) hlibrary hp
    refine ⟨number, q, hq, ?_, ?_⟩
    · rw [hq.plugin_eq, service_of_loadLibrary hp]
    · have hresult : (loadDescribed s config h r).result = .ok number := hq.result_eq
      have hinstance : (loadDescribed s config h r).host.instances[number]? = some q :=
        hq.instance_eq
      simp only [openPlugin_of_standsFor hr, steps_loadDescribed (hempty _) hlibrary, hresult,
        hinstance]
  case library =>
    intro hnone hnames
    rw [openPlugin_of_unknown hnone, if_pos ((namesLibrary_iff argument).mpr hnames)]
  case unknown =>
    intro hnone hnames
    rw [openPlugin_of_unknown hnone, if_neg (mt (namesLibrary_iff argument).mp hnames)]
  case one_file => exact fun step hstep => path_of_mem_openPlugin hempty hstep

/-- A command loads through what its argument stands for, or not at all. -/
theorem run_opens_argument (hread : read arguments = .run options request)
    (hargument : request.plugin? = some argument) (hconfig : settings s options = some (.ok config))
    (hopen : openHost s config = some (.ok h)) :
    ((∃ r, h.catalog.StandsFor argument r) ∨ h.catalog.Unknown argument) ∧
      ∃ opened, Opens s config h argument opened ∧
        run s arguments = Part.outcome ⟨opened.steps, opened.result.bind fun p =>
          pluginReport options.json p request⟩ :=
  ⟨h.catalog.standsFor_or_unknown argument, _, openPlugin_opens hopen argument,
    run_of_plugin hread hargument hconfig hopen⟩

/-- A plugin of the service `vpn` that can do nothing. -/
def idlePlugin : Plugin where
  name := "Idle"
  description := ""
  service := "vpn"
  capabilities := ⟨0⟩
  handler := none
  editor _ := .error "none"
  importFile _ := none
  exportFile _ _ := none
  suggestedName _ := none

/-- Two libraries, and a description with this line that has the path of one of them as an alias. -/
def overlapping (line : String) : Surroundings where
  files := .holding [(["vpn.so"], .plainFile ByteArray.empty),
    (["other.so"], .plainFile ByteArray.empty), (["info"], .plainDirectory),
    (["info", "a.toml"], .plainFile
      ("name = \"a\"\nservice = \"vpn\"\naliases = [\"/other.so\"]\n" ++ line).toUTF8)]
    ⟨1000, 1000, []⟩
  libraries := .ofKnown [(.file ["vpn.so"], .editor (.ok idlePlugin)),
    (.file ["other.so"], .editor (.ok idlePlugin))]
  environment := ⟨none, none⟩

/-- The line by which the description names the other library. -/
def libraryLine : String := "plugin = \"/vpn.so\"\n"

def overlappingConfig : Config := { Config.default with infoDirectory := "/info" }

/-- What a host knows of its descriptions. -/
def knownInfos (opened : Option (Except Failure (Host Libraries))) :
    Option (List (String × String × Option String × List String)) :=
  (opened.bind Except.toOption).map fun h => h.catalog.records.map fun r =>
    (r.info.name, r.info.service, r.info.plugin, r.info.aliases)

theorem exists_standsFor_overlapping {line : String} {library : Option String}
    (hknown : knownInfos (openHost (overlapping line) overlappingConfig) =
      some [("a", "vpn", library, ["/other.so"])]) :
    ∃ h r, openHost (overlapping line) overlappingConfig = some (.ok h) ∧
      h.catalog.StandsFor "/other.so" r ∧ r.info.name = "a" ∧ r.info.service = "vpn" ∧
        r.info.plugin = library := by
  rcases hopen : openHost (overlapping line) overlappingConfig with _ | (e | h)
  · cases hopen ▸ hknown
  · cases hopen ▸ hknown
  · rw [hopen] at hknown
    obtain ⟨r, hr, hinfo⟩ := List.map_eq_singleton_iff.mp (Option.some.inj hknown)
    simp only [Prod.mk.injEq] at hinfo
    obtain ⟨hname, hservice, hlibrary, haliases⟩ := hinfo
    have hstands : h.catalog.StandsFor "/other.so" r :=
      .byAlias [] r [] hr (by simp [haliases]) nofun (by simp [hr, hname]) (by simp [hr, hservice])
    exact ⟨h, r, rfl, hstands, hname, hservice, hlibrary⟩

theorem load_overlapping {h : Host Libraries}
    (hmachine : h.machine = (overlapping libraryLine).libraries) :
    (loadLibrary (overlapping libraryLine) overlappingConfig h "/vpn.so" (some "vpn")).result =
      .ok (EditorPlugin.ofLibrary idlePlugin "/vpn.so" .keptResident) := by
  obtain ⟨instances, caches, next, catalog, records, plugins, journal, machine⟩ := h
  subst hmachine
  rfl

/-- The argument stands for the description, so the library of that path is not loaded: without a
library of its own the description fails the command, and otherwise its library is opened. -/
theorem run_opens_argument_overlapping :
    let arguments := ["--info-dir", "/info", "show", "/other.so"]
    let options : Options := { Options.none with infoDirectory := some "/info" }
    read arguments = .run options (.inspect "/other.so") ∧
      (∀ line, settings (overlapping line) options = some (.ok overlappingConfig)) ∧
      (∃ h r opened, openHost (overlapping "") overlappingConfig = some (.ok h) ∧
        h.catalog.StandsFor "/other.so" r ∧
        Opens (overlapping "") overlappingConfig h "/other.so" opened ∧
        run (overlapping "") arguments = Part.outcome ⟨opened.steps, opened.result.bind fun p =>
          pluginReport options.json p (.inspect "/other.so")⟩ ∧
        opened = ⟨[], .error (.during (.loadDescribed "a") (Host.noLibrary r.info))⟩) ∧
      ∃ h r opened q, openHost (overlapping libraryLine) overlappingConfig = some (.ok h) ∧
        h.catalog.StandsFor "/other.so" r ∧
        Opens (overlapping libraryLine) overlappingConfig h "/other.so" opened ∧
        run (overlapping libraryLine) arguments = Part.outcome
          ⟨opened.steps, opened.result.bind fun p =>
            pluginReport options.json p (.inspect "/other.so")⟩ ∧
        opened.result = .ok q ∧ q.plugin.service = "vpn" ∧
        ∀ step ∈ opened.steps, step.path = "/vpn.so" := by
  intro arguments options
  have hread : read arguments = .run options (.inspect "/other.so") := by decide +kernel
  have hconfig (line : String) :
      settings (overlapping line) options = some (.ok overlappingConfig) := rfl
  refine ⟨hread, hconfig, ?_, ?_⟩
  · obtain ⟨h, r, hopen, hstands, hname, _, hlibrary⟩ :=
      @exists_standsFor_overlapping "" none (by decide +kernel)
    obtain ⟨_, opened, hopened, hrun⟩ := run_opens_argument hread rfl (hconfig "") hopen
    have hfailed := hopened.without_library r hstands hlibrary
    rw [hname] at hfailed
    exact ⟨h, r, opened, hopen, hstands, hopened, hrun, hfailed⟩
  · obtain ⟨h, r, hopen, hstands, _, hservice, hlibrary⟩ :=
      @exists_standsFor_overlapping libraryLine (some "/vpn.so") (by decide +kernel)
    obtain ⟨_, opened, hopened, hrun⟩ := run_opens_argument hread rfl (hconfig libraryLine) hopen
    have hload := load_overlapping (openHost_machine hopen)
    rw [← hservice] at hload
    obtain ⟨number, q, hlinks, hserves, hq⟩ :=
      hopened.described_ok r "/vpn.so" _ hstands hlibrary hload
    refine ⟨h, r, opened, q, hopen, hstands, hopened, hrun, by rw [hq], by rw [hserves, hservice],
      fun step hstep => ?_⟩
    rw [hq] at hstep
    exact path_of_mem_loadLibrary hstep

end CommandLine

end PluginHost
