import PluginHost.Proofs.Call.ServiceCalls
import PluginHost.Proofs.CommandLine.PluginArgument
import PluginHost.Proofs.Data.Members

/-! # Asking for details

The details of a service type are asked for one after the other, up to the first failure. What is
printed depends on all of them, so after a failure nothing is. -/

namespace PluginHost.CommandLine

/-! ## Asking in turn -/

def listCall (serviceType : String) : String × List CallValue :=
  (WellKnownCall.addDetails.name, [.string serviceType])

def detailCall (serviceType name : String) : String × List CallValue :=
  (WellKnownCall.addDetail.name, [.string serviceType, .string name])

/-- A plugin answers for one detail after the other. -/
inductive AnswersEach (plugin : Plugin) (serviceType : String) :
    History → List (String × AddDetail) → History → Prop where
  | nil {history} : AnswersEach plugin serviceType history [] history
  | cons {history between after name detail details}
      (h : serviceAddDetail plugin history serviceType name = (.ok detail, between))
      (hrest : AnswersEach plugin serviceType between details after) :
      AnswersEach plugin serviceType history ((name, detail) :: details) after

/-- How a plugin is asked for all details of a service type, and what it runs for that: the list
once and then each detail once, in the order of the list, up to the first failure. -/
inductive AsksInTurn (plugin : Plugin) (serviceType : String) (history : History) :
    Except Failure (List (String × AddDetail)) → History → Prop where
  | unlisted {e after}
      (hlist : serviceAddDetails plugin history serviceType = (.error e, after))
      (hruns : after.calls = history.calls ∨
        after.calls = history.calls ++ [listCall serviceType]) :
      AsksInTurn plugin serviceType history (.error (.during (.askAddDetails serviceType) e)) after
  | stopped {details name rest listed asked e after}
      (hlist : serviceAddDetails plugin history serviceType =
        (.ok (details.map Prod.fst ++ name :: rest), listed))
      (hasked : AnswersEach plugin serviceType listed details asked)
      (hname : serviceAddDetail plugin asked serviceType name = (.error e, after))
      (hbefore : asked.calls = history.calls ++
        listCall serviceType :: details.map fun (name, _) => detailCall serviceType name)
      (hruns : after.calls = asked.calls ∨
        after.calls = asked.calls ++ [detailCall serviceType name]) :
      AsksInTurn plugin serviceType history (.error (.during (.askAddDetail name) e)) after
  | answered {details listed after}
      (hlist : serviceAddDetails plugin history serviceType =
        (.ok (details.map Prod.fst), listed))
      (hasked : AnswersEach plugin serviceType listed details after)
      (hruns : after.calls = history.calls ++
        listCall serviceType :: details.map fun (name, _) => detailCall serviceType name) :
      AsksInTurn plugin serviceType history (.ok details) after

section

variable {plugin : Plugin} {history after : History} {serviceType name : String}

theorem runs_of_list {names : List String}
    (h : serviceAddDetails plugin history serviceType = (.ok names, after)) :
    after.calls = history.calls ++ [listCall serviceType] :=
  runs_of_answer h

theorem runs_of_failed_list {e : HostError}
    (h : serviceAddDetails plugin history serviceType = (.error e, after)) :
    after.calls = history.calls ∨ after.calls = history.calls ++ [listCall serviceType] :=
  runs_of_failure h

theorem runs_of_detail {detail : AddDetail}
    (h : serviceAddDetail plugin history serviceType name = (.ok detail, after)) :
    after.calls = history.calls ++ [detailCall serviceType name] :=
  runs_of_answer h

theorem runs_of_failed_detail {e : HostError}
    (h : serviceAddDetail plugin history serviceType name = (.error e, after)) :
    after.calls = history.calls ∨
      after.calls = history.calls ++ [detailCall serviceType name] :=
  runs_of_failure h

theorem AnswersEach.runs {details : List (String × AddDetail)}
    (h : AnswersEach plugin serviceType history details after) :
    after.calls = history.calls ++ details.map fun (name, _) => detailCall serviceType name := by
  induction h with
  | nil => exact (List.append_nil _).symm
  | cons h _ ih =>
      rw [ih, runs_of_detail h, List.append_assoc, List.map_cons, List.singleton_append]

/-- Either there is an answer for each of the details, or the first one without an answer is where
the asking stops. -/
theorem askDetails_cases (plugin : Plugin) (serviceType : String) (history : History)
    (names : List String) :
    (∃ details after, AnswersEach plugin serviceType history details after ∧
        details.map Prod.fst = names ∧
        askDetails plugin serviceType history names = (.ok details, after)) ∨
      ∃ details name rest asked e after, names = details.map Prod.fst ++ name :: rest ∧
        AnswersEach plugin serviceType history details asked ∧
        serviceAddDetail plugin asked serviceType name = (.error e, after) ∧
        askDetails plugin serviceType history names =
          (.error (.during (.askAddDetail name) e), after) := by
  induction names generalizing history with
  | nil => exact .inl ⟨[], history, .nil, rfl, rfl⟩
  | cons name rest ih =>
      rcases hname : serviceAddDetail plugin history serviceType name with ⟨e | detail, between⟩
      · exact .inr ⟨[], name, rest, history, e, between, rfl, .nil, hname, by
          simp only [askDetails, hname]⟩
      · rcases ih between with ⟨details, after, heach, hnames, hask⟩ |
          ⟨details, stop, later, asked, e, after, hnames, heach, hstop, hask⟩
        · left
          refine ⟨(name, detail) :: details, after, .cons hname heach, ?_, ?_⟩
          · rw [List.map_cons, hnames]
          · simp only [askDetails, hname, hask]
        · right
          refine ⟨(name, detail) :: details, stop, later, asked, e, after, ?_,
            .cons hname heach, hstop, ?_⟩
          · rw [List.map_cons, hnames, List.cons_append]
          · simp only [askDetails, hname, hask]

theorem allDetails_asks (p : EditorPlugin) (serviceType : String) :
    AsksInTurn p.plugin serviceType p.history (allDetails p serviceType).1
      (allDetails p serviceType).2 := by
  unfold allDetails
  rcases hlist : serviceAddDetails p.plugin p.history serviceType with ⟨e | names, listed⟩
  · exact .unlisted hlist (runs_of_failed_list hlist)
  · have hlisted := runs_of_list hlist
    rcases askDetails_cases p.plugin serviceType listed names with
      ⟨details, after, heach, rfl, hask⟩ |
      ⟨details, name, rest, asked, e, after, rfl, heach, hname, hask⟩
    · simp only [hask]
      refine .answered hlist heach ?_
      rw [heach.runs, hlisted, List.append_assoc, List.singleton_append]
    · simp only [hask]
      refine .stopped hlist heach hname ?_ (runs_of_failed_detail hname)
      rw [heach.runs, hlisted, List.append_assoc, List.singleton_append]

end

/-! ## What is printed -/

def detailBlock (name : String) (detail : AddDetail) : String :=
  name ++ ": " ++ detail.prettyName ++ "\n" ++
    "  Description: " ++ detail.description ++ "\n" ++
    "  Key: " ++ detail.key ++ "\n"

/-- What is printed of the details of a service type. -/
structure PrintsDetails (json : Bool) (serviceType : String) (details : List (String × AddDetail))
    (output : String) : Prop where
  none : json = false → details = [] → output = "No add-details for " ++ serviceType ++ "\n"
  blocks : json = false → details ≠ [] →
    output = String.join (details.map fun (name, detail) => detailBlock name detail)
  /-- As data there is one record, which has each name once, with the last detail of the name. -/
  data : json = true → ∃ members, Json.readDatum? output = some (.record members) ∧
    (members.map Prod.fst).Nodup ∧
    (∀ name, name ∈ members.map Prod.fst ↔ name ∈ details.map Prod.fst) ∧
    ∀ name detail, details.reverse.lookup name = some detail →
      ∃ d, members.lookup name = some d ∧ Json.decodeDatum AddDetail.ofTree d = .ok detail

theorem linesText_append (lines more : List String) :
    linesText (lines ++ more) = linesText lines ++ linesText more := by
  simp [linesText, String.join_append]

theorem linesText_detailLines (name : String) (detail : AddDetail) :
    linesText (detailLines name detail) = detailBlock name detail := by
  simp only [linesText, detailLines, detailBlock, List.map, String.join_cons, String.join_nil,
    String.append_assoc, String.append_empty]

theorem linesText_details (details : List (String × AddDetail)) :
    linesText (details.flatMap fun (name, detail) => detailLines name detail) =
      String.join (details.map fun (name, detail) => detailBlock name detail) := by
  induction details with
  | nil => rfl
  | cons d rest ih =>
      rw [List.flatMap_cons, linesText_append, ih, List.map_cons, String.join_cons,
        linesText_detailLines]

def detailMembers (details : List (String × AddDetail)) : List (String × Datum) :=
  Datum.sortedMembers (details.map fun (name, detail) => (name, detail.toDatum.sorted))

theorem exact_detailMembers (details : List (String × AddDetail)) :
    (Datum.record (detailMembers details)).Exact := by
  refine .record fun m hm => ?_
  obtain ⟨⟨_, detail⟩, _, rfl⟩ := List.mem_map.mp (Datum.mem_sortedMembers hm)
  exact detail.exact_toDatum.sorted

theorem lookup_detailMembers (details : List (String × AddDetail)) (name : String) :
    (detailMembers details).lookup name =
      (details.reverse.lookup name).map fun detail => detail.toDatum.sorted := by
  rw [detailMembers, Datum.lookup_sortedMembers, ← List.map_reverse]
  generalize details.reverse = reversed
  induction reversed with
  | nil => rfl
  | cons d rest ih =>
      obtain ⟨other, detail⟩ := d
      rw [List.map_cons, Named.lookup_cons_ite, ih, List.lookup_cons]
      by_cases hname : name = other
      · simp [hname]
      · simp [hname, beq_false_of_ne hname]

theorem detailsReport_prints (json : Bool) (serviceType : String)
    (details : List (String × AddDetail)) :
    PrintsDetails json serviceType details (detailsReport json serviceType details) := by
  constructor
  case none =>
    rintro rfl rfl
    simp [detailsReport, linesText, String.join]
  case blocks =>
    rintro rfl hne
    simp [detailsReport, hne, linesText_details]
  case data =>
    rintro rfl
    refine ⟨detailMembers details, ?_, Datum.nodup_sortedMembers _, fun name => ?_,
      fun name detail hdetail => ?_⟩
    · exact Json.readDatum?_prettyText_line (exact_detailMembers details)
    · rw [detailMembers, Datum.mem_names_sortedMembers, List.map_map]
      rfl
    · refine ⟨detail.toDatum.sorted, ?_, AddDetail.ofTree_sorted _ detail⟩
      rw [lookup_detailMembers, hdetail, Option.map_some]

/-! ## Runs about details -/

/-- The command asks in turn; it prints all of the details, or fails and prints nothing. -/
theorem run_asks_details {s : Surroundings} {arguments : List String} {options : Options}
    {argument serviceType : String} {config : Config} {h : Host Libraries} {p : EditorPlugin}
    (hread : read arguments = .run options (.addDetails argument serviceType))
    (hconfig : settings s options = some (.ok config)) (hopen : openHost s config = some (.ok h))
    (hp : (openPlugin s config h argument).result = .ok p) :
    let asked := allDetails p serviceType
    let steps := (openPlugin s config h argument).steps
    AsksInTurn p.plugin serviceType p.history asked.1 asked.2 ∧
      (∀ failure, asked.1 = .error failure →
        run s arguments = ⟨some 1, "", failure.message ++ "\n", steps⟩) ∧
      ∀ details, asked.1 = .ok details → ∃ output,
        run s arguments = ⟨some 0, output, "", steps⟩ ∧
          PrintsDetails options.json serviceType details output := by
  intro asked steps
  have hrun : run s arguments =
      Part.outcome ⟨steps, asked.1.map (detailsReport options.json serviceType)⟩ := by
    rw [run_of_plugin hread rfl hconfig hopen, hp]
    rfl
  refine ⟨allDetails_asks p serviceType, fun failure hfailure => ?_, fun details hdetails => ?_⟩
  · rw [hrun, hfailure]
    rfl
  · refine ⟨detailsReport options.json serviceType details, ?_,
      detailsReport_prints options.json serviceType details⟩
    rw [hrun, hdetails]
    rfl

/-- A handler that lists a detail twice, and that numbers its answers. -/
def listingTwice : CallHandler where
  signature call := some fun _ =>
    if call = WellKnownCall.addDetails.name then some ⟨[.string], [.stringList], true, true⟩
    else some ⟨[.string, .string], [.string, .string, .string, .uint], true, true⟩
  run history call inputs _ :=
    if call = WellKnownCall.addDetails.name then
      ⟨[(0, .stringList ["user", "group", "user"])], .ok ()⟩
    else
      ⟨[(0, inputs.getD 1 (.string "")), (3, .uint history.calls.length.toUInt32)], .ok ()⟩

/-- A machine with one library, whose plugin has this handler. -/
def listingMachine : Surroundings where
  files := .holding [(["vpn.so"], .plainFile ByteArray.empty)] ⟨1000, 1000, []⟩
  libraries := .ofKnown [(.file ["vpn.so"], .editor (.ok listingTwice.plugin))]
  environment := ⟨none, none⟩

theorem run_asks_details_twice :
    let arguments := ["--json", "add-details", "/vpn.so", "l2tp"]
    let options : Options := { Options.none with json := true }
    let h : Host Libraries := Host.fresh listingMachine.libraries
    let p := EditorPlugin.ofLibrary listingTwice.plugin "/vpn.so" .keptResident
    let opened := openPlugin listingMachine Config.default h "/vpn.so"
    let details : List (String × AddDetail) := [("user", ⟨"user", "", "", 1⟩),
      ("group", ⟨"group", "", "", 2⟩), ("user", ⟨"user", "", "", 3⟩)]
    read arguments = .run options (.addDetails "/vpn.so" "l2tp") ∧
      settings listingMachine options = some (.ok Config.default) ∧
      openHost listingMachine Config.default = some (.ok h) ∧
      opened.result = .ok p ∧ (allDetails p "l2tp").1 = .ok details ∧
      AsksInTurn listingTwice.plugin "l2tp" [] (.ok details) (allDetails p "l2tp").2 ∧
      ∃ output, run listingMachine arguments = ⟨some 0, output, "", opened.steps⟩ ∧
        PrintsDetails true "l2tp" details output := by
  intro arguments options h p opened details
  have hread : read arguments = .run options (.addDetails "/vpn.so" "l2tp") := by decide +kernel
  have hconfig : settings listingMachine options = some (.ok Config.default) := rfl
  have hopen : openHost listingMachine Config.default = some (.ok h) := rfl
  have hunknown : h.catalog.Unknown "/vpn.so" := nofun
  have hnames : namesLibrary "/vpn.so" = true := rfl
  have hload : (loadLibrary listingMachine Config.default h "/vpn.so" none).result = .ok p := rfl
  have hp : opened.result = .ok p := by
    rw [show opened = _ from openPlugin_of_unknown hunknown, if_pos hnames, hload]
    rfl
  have hdetails : (allDetails p "l2tp").1 = .ok details := eq_ok_of_toOption (by decide +kernel)
  obtain ⟨hasks, _, hprints⟩ := run_asks_details hread hconfig hopen hp
  rw [hdetails] at hasks
  exact ⟨hread, hconfig, hopen, hp, hdetails, hasks, hprints details hdetails⟩

end PluginHost.CommandLine
