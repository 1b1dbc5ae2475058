import PluginHost.Files.Following
import PluginHost.Proofs.Files.Resolution

/-! # Paths are resolved by the rules

Resolving a path counts its links downwards and gives up at the limit. Otherwise it ends exactly
where the rules for following paths lead. -/

namespace PluginHost.FileSystem

variable {fs : FileSystem}

/-! ## What is at the end -/

/-- The end of a path, where something has to stand. -/
def outcome (fs : FileSystem) : Except FileFault Target → Except FileFault Place
  | .ok (.present place) => if (fs.at? place).isSome then .ok place else .error .missing
  | .ok (.vacant _) => .error .missing
  | .error fault => .error fault

/-- Goes on behind a link, through at most the given number of links in all. -/
def behindLink (fs : FileSystem) : Nat → Place → String → List String → Except FileFault Target
  | 0, _, _, _ => .error .tooManyLinks
  | links + 1, directory, target, rest =>
    fs.walk links false (Path.parts target ++ rest) (linkStart directory target)

theorem walk_eq_step (links : Nat) : fs.walk links false = fs.step (fs.behindLink links) := by
  cases links with
  | zero => rfl
  | succ links => rw [walk_succ]; rfl

/-! ## One part of a path -/

section

variable {part : String} {place : Place}

theorem turn_of_blocked (h : fs.isDirectoryAt place = false) :
    fs.turn part place = .error .notADirectory := by
  simp [turn, h]

theorem turn_of_slash (h : fs.isDirectoryAt place = true) :
    fs.turn "" place = .ok (.along place) := by
  simp [turn, h]

theorem turn_of_denied (h : fs.isDirectoryAt place = true) (hp : part ≠ "")
    (hs : fs.permits .search place = false) : fs.turn part place = .error .denied := by
  simp [turn, h, hp, hs]

namespace Searchable

variable (h : fs.Searchable place)

include h

theorem turn_same : fs.turn "." place = .ok (.along place) := by
  simp [turn, h.directory, h.permitted]

theorem turn_above : fs.turn ".." place = .ok (.along place.dropLast) := by
  simp [turn, h.directory, h.permitted]

theorem turn_long (hl : nameLimit < part.utf8ByteSize) :
    fs.turn part place = .error .nameTooLong := by
  have hne : ∀ short : String, short.utf8ByteSize ≤ nameLimit → part ≠ short := by
    rintro short hshort rfl
    exact absurd hl (Nat.not_lt.mpr hshort)
  simp [turn, h.directory, h.permitted, hl, hne "" (by decide), hne "." (by decide),
    hne ".." (by decide)]

theorem turn_name (hn : IsName part) : fs.turn part place = .ok (.into (place ++ [part])) := by
  simp [turn, h.directory, h.permitted, hn.ne_empty, hn.ne_same, hn.ne_above,
    Nat.not_lt.mpr hn.length_le]

end Searchable

variable (fs) in
/-- Every turn is taken by a rule. -/
theorem turn_follows (part : String) (place : Place) :
    (∃ fault, fs.turn part place = .error fault ∧
        ∀ rest, fs.Follows 0 (part :: rest) place (.error fault)) ∨
      (∃ next, fs.turn part place = .ok (.along next) ∧
        ∀ links rest result, fs.Follows links rest next result →
          fs.Follows links (part :: rest) place result) ∨
      fs.turn part place = .ok (.into (place ++ [part])) ∧ fs.Searchable place ∧ IsName part := by
  cases hd : fs.isDirectoryAt place with
  | false => exact .inl ⟨_, turn_of_blocked hd, fun _ => .blocked hd⟩
  | true =>
      by_cases hp : part = ""
      · subst hp
        exact .inr (.inl ⟨place, turn_of_slash hd, fun _ _ _ => .slash hd⟩)
      cases hs : fs.permits .search place with
      | false => exact .inl ⟨_, turn_of_denied hd hp hs, fun _ => .denied hd hp hs⟩
      | true =>
          have h : fs.Searchable place := ⟨hd, hs⟩
          by_cases hsame : part = "."
          · subst hsame
            exact .inr (.inl ⟨place, h.turn_same, fun _ _ _ => .same h⟩)
          by_cases habove : part = ".."
          · subst habove
            exact .inr (.inl ⟨place.dropLast, h.turn_above, fun _ _ _ => .above h⟩)
          by_cases hl : nameLimit < part.utf8ByteSize
          · exact .inl ⟨_, h.turn_long hl, fun _ => .tooLong h hl⟩
          · have hn : IsName part := ⟨hp, hsame, habove, Nat.le_of_not_lt hl⟩
            exact .inr (.inr ⟨h.turn_name hn, h, hn⟩)

end

/-! ## From the rules to the walk -/

/-- Where the way goes on is decided by the first part alone. -/
theorem Follows.outcome_walk {links bound : Nat} {parts : List String} {place : Place}
    {result : Except FileFault Place} (h : fs.Follows links parts place result)
    (hbound : links ≤ bound) : fs.outcome (fs.walk bound false parts place) = result := by
  rw [walk_eq_step]
  induction h generalizing bound with
  | arrived h => simp [step, outcome, h]
  | lost h => simp [step, outcome, h]
  | blocked hd => simp [step_of_fault (turn_of_blocked hd), outcome]
  | slash hd _ ih => simpa [step_of_along (turn_of_slash hd)] using ih hbound
  | denied hd hp hs => simp [step_of_fault (turn_of_denied hd hp hs), outcome]
  | same hd _ ih => simpa [step_of_along hd.turn_same] using ih hbound
  | above hd _ ih => simpa [step_of_along hd.turn_above] using ih hbound
  | tooLong hd hl => simp [step_of_fault (hd.turn_long hl), outcome]
  | @absent part rest place hd hn he =>
      rw [step_of_into (hd.turn_name hn)]
      cases rest with
      | nil => simp [stepInto, he, outcome]
      | cons next rest => simp [stepInto, he, outcome]
  | @link links part rest place target permissions result hd hn he _ ih =>
      obtain ⟨left, rfl⟩ := Nat.exists_eq_add_of_le' hbound
      have hrest := ih (Nat.le_add_left links left)
      rw [← walk_eq_step] at hrest
      simpa [step_of_into (hd.turn_name hn), stepInto, he, behindLink] using hrest
  | @entered links part rest place e result hd hn he hk _ ih =>
      have hrest := ih hbound
      obtain ⟨kind, permissions⟩ := e
      rw [step_of_into (hd.turn_name hn)]
      cases kind with
      | link target => exact absurd rfl (hk target)
      | _ => simpa [stepInto, he] using hrest

/-! ## From the walk to the rules -/

/-- A walk ended where the rules lead through at most the given number of links, or gave up. -/
def Keeps (fs : FileSystem) (bound : Nat) (parts : List String) (place : Place)
    (found : Except FileFault Target) : Prop :=
  (∃ links ≤ bound, fs.Follows links parts place (fs.outcome found)) ∨
    found = .error .tooManyLinks

theorem keeps_of_rule {bound : Nat} {parts rest : List String} {place next : Place}
    {found : Except FileFault Target} (h : fs.Keeps bound rest next found)
    (hrule : ∀ links result, fs.Follows links rest next result →
      fs.Follows links parts place result) : fs.Keeps bound parts place found := by
  rcases h with ⟨links, hbound, hfollows⟩ | hlost
  · exact .inl ⟨links, hbound, hrule links _ hfollows⟩
  · exact .inr hlost

theorem keeps_of_end {bound : Nat} {parts : List String} {place : Place}
    {found : Except FileFault Target} (h : fs.Follows 0 parts place (fs.outcome found)) :
    fs.Keeps bound parts place found :=
  .inl ⟨0, Nat.zero_le bound, h⟩

theorem keeps_step {bound : Nat}
    (hbehind : ∀ {part rest place target permissions}, fs.Searchable place →
      IsName part → fs.at? (place ++ [part]) = some ⟨.link target, permissions⟩ →
      fs.Keeps bound (part :: rest) place (fs.behindLink bound place target rest))
    (parts : List String) (place : Place) :
    fs.Keeps bound parts place (fs.step (fs.behindLink bound) parts place) := by
  induction parts generalizing place with
  | nil =>
      cases he : fs.at? place with
      | none => exact keeps_of_end (by simpa [step, outcome, he] using Follows.lost he)
      | some e => exact keeps_of_end (by simpa [step, outcome, he] using Follows.arrived he)
  | cons part rest ih =>
      rcases fs.turn_follows part place with
        ⟨fault, hturn, hrule⟩ | ⟨next, hturn, hrule⟩ | ⟨hturn, hd, hn⟩
      · rw [step_of_fault hturn]
        exact keeps_of_end (hrule rest)
      · rw [step_of_along hturn]
        exact keeps_of_rule (ih next) fun links result => hrule links rest result
      · rw [step_of_into hturn, stepInto]
        cases he : fs.at? (place ++ [part]) with
        | none =>
            dsimp only
            split
            · exact keeps_of_end (.absent hd hn he)
            · exact keeps_of_end (.absent hd hn he)
        | some e =>
            obtain ⟨kind, permissions⟩ := e
            cases kind with
            | link target => exact hbehind hd hn he
            | _ => exact keeps_of_rule (ih _) fun _ _ => .entered hd hn he (by simp)

theorem keeps_walk (bound : Nat) (parts : List String) (place : Place) :
    fs.Keeps bound parts place (fs.walk bound false parts place) := by
  induction bound generalizing parts place with
  | zero =>
      rw [walk_eq_step]
      exact keeps_step (fun _ _ _ => .inr rfl) parts place
  | succ bound ih =>
      rw [walk_eq_step]
      refine keeps_step (fun hd hn he => ?_) parts place
      rcases ih (Path.parts _ ++ _) (linkStart _ _) with ⟨links, hbound, hfollows⟩ | hlost
      · exact .inl ⟨links + 1, Nat.succ_le_succ hbound, .link hd hn he hfollows⟩
      · exact .inr hlost

/-! ## Whole paths -/

theorem present_of_outcome {found : Except FileFault Target} {place : Place}
    (h : fs.outcome found = .ok place) :
    found = .ok (.present place) ∧ ∃ e, fs.at? place = some e := by
  unfold outcome at h
  split at h
  · split at h
    · rename_i hthere
      cases h
      exact ⟨rfl, Option.isSome_iff_exists.mp hthere⟩
    · cases h
  · cases h
  · cases h

theorem entry_of_legal {path : String} (h : checkPath path = .ok ()) :
    fs.entry path =
      match fs.outcome (fs.walk linkLimit false (Path.parts path) (fs.beginning path)) with
      | .ok place =>
        match fs.at? place with
        | some e => .ok e
        | none => .error .missing
      | .error fault => .error fault := by
  simp only [entry, resolve_of_legal h]
  generalize fs.walk linkLimit false (Path.parts path) (fs.beginning path) = found
  rcases found with fault | place | place
  · rfl
  · cases he : fs.at? place with
    | none => simp [outcome, he, bind, Except.bind]
    | some e => simp [outcome, he, bind, Except.bind, pure, Except.pure]
  · rfl

theorem entry_of_fault {path : String} {fault : FileFault} (h : checkPath path = .error fault) :
    fs.entry path = .error fault := by
  simp [entry, resolve_of_fault h, bind, Except.bind]

theorem Leads.outcome_eq {path : String} {place : Place} (h : fs.Leads path place) :
    fs.outcome (fs.walk linkLimit false (Path.parts path) (fs.beginning path)) = .ok place := by
  obtain ⟨_, links, hbound, hfollows⟩ := h
  exact hfollows.outcome_walk hbound

theorem Leads.resolve_eq {path : String} {place : Place} (h : fs.Leads path place) :
    fs.resolve path = .ok place := by
  rw [resolve_of_legal h.1, (present_of_outcome h.outcome_eq).1]

/-- What is found under a path is what stands where the path leads. -/
theorem entry_eq_ok_iff {path : String} {e : FileEntry} :
    fs.entry path = .ok e ↔ ∃ place, fs.Leads path place ∧ fs.at? place = some e := by
  constructor
  · intro h
    cases hcheck : checkPath path with
    | error fault => cases (entry_of_fault hcheck).symm.trans h
    | ok u =>
        rw [entry_of_legal hcheck] at h
        split at h
        next place houtcome =>
          split at h
          next found hfound =>
            cases h
            rcases keeps_walk linkLimit (Path.parts path) (fs.beginning path) with
              ⟨links, hbound, hfollows⟩ | hlost
            · rw [houtcome] at hfollows
              exact ⟨place, ⟨hcheck, links, hbound, hfollows⟩, hfound⟩
            · rw [hlost] at houtcome
              cases houtcome
          next => cases h
        next => cases h
  · rintro ⟨place, hleads, hplace⟩
    rw [entry_of_legal hleads.1, hleads.outcome_eq]
    simp only [hplace]

theorem Breaks.entry_eq {path : String} {fault : FileFault} (h : fs.Breaks path fault) :
    fs.entry path = .error fault := by
  rcases h with hfirst | ⟨hcheck, links, hbound, hfollows⟩
  · exact entry_of_fault hfirst
  · rw [entry_of_legal hcheck, hfollows.outcome_walk hbound]

/-- Nothing is found under a path that leads nowhere, and its fault is the first on its way. -/
theorem entry_eq_error_iff {path : String} {fault : FileFault} (hfault : fault ≠ .tooManyLinks) :
    fs.entry path = .error fault ↔ fs.Breaks path fault := by
  refine ⟨fun h => ?_, Breaks.entry_eq⟩
  cases hcheck : checkPath path with
  | error first =>
      cases (entry_of_fault hcheck).symm.trans h
      exact .inl hcheck
  | ok u =>
      rw [entry_of_legal hcheck] at h
      rcases keeps_walk linkLimit (Path.parts path) (fs.beginning path) with
        ⟨links, hbound, hfollows⟩ | hlost
      · split at h
        next place houtcome =>
          obtain ⟨_, e, he⟩ := present_of_outcome houtcome
          simp [he] at h
        next first houtcome =>
          cases h
          rw [houtcome] at hfollows
          exact .inr ⟨hcheck, links, hbound, hfollows⟩
      · rw [hlost] at h
        cases h
        exact absurd rfl hfault

end PluginHost.FileSystem
