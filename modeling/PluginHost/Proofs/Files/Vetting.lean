import Mathlib.Data.Nat.Bitwise
import PluginHost.Files.Vetting
import PluginHost.Proofs.Files.Following
import PluginHost.Proofs.Results

/-! # What vetting decides

A file is accepted exactly if its path is absolute and leads to a regular file that is out of reach
of everybody who is not trusted, and the policy agrees. A path that breaks off where something is
missing is told apart from one that is not to be trusted, whatever is demanded of the file. -/

namespace PluginHost

/-! ## Trusted files -/

/-- Nobody but the user and the superuser can change the file, and it lends nobody the identity of
its owner. -/
structure FileStatus.OutOfReach (status : FileStatus) (user : Nat) : Prop where
  owner : status.owner = superuser ∨ status.owner = user
  /-- The group may not write. -/
  group : status.mode.testBit 4 = false
  /-- Nor may all others. -/
  others : status.mode.testBit 1 = false
  setUser : status.mode.testBit 11 = false

/-- A path leads to a regular file that may be mapped, as far as no policy has a say. -/
structure Trusted (fs : FileSystem) (required : Option Nat) (path : String) (status : FileStatus) :
    Prop where
  regular : ∃ place content permissions, fs.Leads path place ∧
    fs.at? place = some ⟨.file content, permissions⟩ ∧ status = ⟨permissions, true, content.size⟩
  absolute : Path.isAbsolute path = true
  outOfReach : ∀ user, required = some user → status.OutOfReach user

/-- A path leads nowhere because something is missing on its way, or is no directory. -/
def Missing (fs : FileSystem) (path : String) : Prop :=
  fs.Breaks path .missing ∨ fs.Breaks path .notADirectory

theorem and_insecureBits_eq_zero_iff (mode : Nat) :
    mode &&& insecureBits = 0 ↔
      mode.testBit 4 = false ∧ mode.testBit 1 = false ∧ mode.testBit 11 = false := by
  have hbits : insecureBits = 2 ^ 4 ||| 2 ^ 1 ||| 2 ^ 11 := by decide
  have hbit : ∀ i, (mode &&& insecureBits).testBit i =
      (mode.testBit i && (decide (4 = i) || decide (1 = i) || decide (11 = i))) := by
    intro i
    simp only [hbits, Nat.testBit_and, Nat.testBit_or, Nat.testBit_two_pow]
  constructor
  · intro h
    simp only [h, Nat.zero_testBit] at hbit
    exact ⟨by simpa using hbit 4, by simpa using hbit 1, by simpa using hbit 11⟩
  · rintro ⟨hgroup, hothers, hsetUser⟩
    refine Nat.eq_of_testBit_eq fun i => ?_
    rw [hbit, Nat.zero_testBit]
    by_cases h : 4 = i ∨ 1 = i ∨ 11 = i
    · rcases h with rfl | rfl | rfl
      · simp [hgroup]
      · simp [hothers]
      · simp [hsetUser]
    · simp only [not_or] at h
      simp [h.1, h.2.1, h.2.2]

theorem ownerFault?_eq_none_iff (required : Option Nat) (status : FileStatus) :
    ownerFault? required status = none ↔ ∀ user, required = some user → status.OutOfReach user := by
  cases required with
  | none => simp [ownerFault?]
  | some owner =>
      have hbits := and_insecureBits_eq_zero_iff status.mode
      unfold ownerFault?
      constructor
      · intro h user huser
        cases huser
        dsimp only at h
        split_ifs at h with hforeign hopen
        have howner : status.owner = superuser ∨ status.owner = owner := by
          by_contra hno
          exact hforeign (not_or.mp hno)
        obtain ⟨hgroup, hothers, hsetUser⟩ := hbits.mp (not_not.mp hopen)
        exact ⟨howner, hgroup, hothers, hsetUser⟩
      · intro h
        have hreach := h owner rfl
        have hforeign : ¬ (status.owner ≠ superuser ∧ status.owner ≠ owner) := by
          rintro ⟨hsuper, hother⟩
          exact hreach.owner.elim hsuper hother
        have hopen := hbits.mpr ⟨hreach.group, hreach.others, hreach.setUser⟩
        simp only [if_neg hforeign, hopen, ne_eq, not_true_eq_false, if_false]

/-! ## Checks that need no policy -/

section

variable {fs : FileSystem} {required : Option Nat} {path : String} {status : FileStatus}

theorem missing_iff (fs : FileSystem) (path : String) :
    Missing fs path ↔ fs.entry path = .error .missing ∨ fs.entry path = .error .notADirectory := by
  rw [Missing, FileSystem.entry_eq_error_iff (by decide), FileSystem.entry_eq_error_iff (by decide)]

theorem Trusted.exists_entry (h : Trusted fs required path status) :
    ∃ content permissions, fs.entry path = .ok ⟨.file content, permissions⟩ ∧
      status = ⟨permissions, true, content.size⟩ := by
  obtain ⟨place, content, permissions, hleads, hplace, hstatus⟩ := h.regular
  exact ⟨content, permissions, FileSystem.entry_eq_ok_iff.mpr ⟨place, hleads, hplace⟩, hstatus⟩

theorem Trusted.unique {other : FileStatus} (h : Trusted fs required path status)
    (ho : Trusted fs required path other) : status = other := by
  obtain ⟨content, permissions, hentry, rfl⟩ := h.exists_entry
  obtain ⟨content', permissions', hentry', rfl⟩ := ho.exists_entry
  cases hentry.symm.trans hentry'
  rfl

theorem Trusted.not_missing (h : Trusted fs required path status) : ¬ Missing fs path := by
  obtain ⟨content, permissions, hentry, _⟩ := h.exists_entry
  rw [missing_iff, hentry]
  simp

/-- The verdicts that need no policy. -/
inductive StatusVerdict (fs : FileSystem) (required : Option Nat) (path : String) :
    Except HostError FileStatus → Prop where
  | trusted (found : FileStatus) (h : Trusted fs required path found) :
      StatusVerdict fs required path (.ok found)
  | missing (h : Missing fs path) : StatusVerdict fs required path (.error (.notFound path))
  | untrusted (reason : String) (hm : ¬ Missing fs path)
      (ht : ∀ found, ¬ Trusted fs required path found) :
      StatusVerdict fs required path (.error (.untrustedFile path reason))

theorem not_trusted_of_error {fault : FileFault} (h : fs.entry path = .error fault)
    (status : FileStatus) : ¬ Trusted fs required path status := by
  intro ht
  obtain ⟨content, permissions, hentry, _⟩ := ht.exists_entry
  cases h.symm.trans hentry

theorem statusVerdict_of_entry {e : FileEntry} (h : fs.entry path = .ok e) :
    StatusVerdict fs required path (vetStatus fs required path) := by
  have hm : ¬ Missing fs path := by
    rw [missing_iff, h]
    simp
  have hstatus : fs.status path = .ok e.status := by rw [FileSystem.status, h]; rfl
  simp only [vetStatus, hstatus]
  split_ifs with hfile habsolute
  · refine .untrusted _ hm fun status ht => ?_
    obtain ⟨content, permissions, hentry, _⟩ := ht.exists_entry
    cases h.symm.trans hentry
    simp [FileEntry.status] at hfile
  · exact .untrusted _ hm fun status ht => by simp [ht.absolute] at habsolute
  · -- what is left is a regular file under an absolute path
    obtain ⟨kind, permissions⟩ := e
    cases kind with
    | file content =>
        cases howner : ownerFault? required (FileEntry.status ⟨.file content, permissions⟩) with
        | some reason =>
            refine .untrusted _ hm fun status ht => ?_
            obtain ⟨content', permissions', hentry, rfl⟩ := ht.exists_entry
            cases h.symm.trans hentry
            have hnone := (ownerFault?_eq_none_iff _ _).mpr ht.outOfReach
            cases howner.symm.trans hnone
        | none =>
            obtain ⟨place, hleads, hplace⟩ := FileSystem.entry_eq_ok_iff.mp h
            exact .trusted _ {
              regular := ⟨place, content, permissions, hleads, hplace, rfl⟩
              absolute := by simpa using habsolute
              outOfReach := (ownerFault?_eq_none_iff _ _).mp howner }
    | _ => simp [FileEntry.status] at hfile

theorem vetStatus_verdict (fs : FileSystem) (required : Option Nat) (path : String) :
    StatusVerdict fs required path (vetStatus fs required path) := by
  cases h : fs.entry path with
  | ok e => exact statusVerdict_of_entry h
  | error fault =>
      have hstatus : fs.status path = .error fault := by rw [FileSystem.status, h]; rfl
      cases fault with
      | missing =>
          simp only [vetStatus, hstatus]
          exact .missing ((missing_iff fs path).mpr (.inl h))
      | notADirectory =>
          simp only [vetStatus, hstatus]
          exact .missing ((missing_iff fs path).mpr (.inr h))
      | _ =>
          simp only [vetStatus, hstatus]
          exact .untrusted _ (by rw [missing_iff, h]; simp) (not_trusted_of_error h)

theorem vetStatus_of_trusted (h : Trusted fs required path status) :
    vetStatus fs required path = .ok status := by
  have hverdict := vetStatus_verdict fs required path
  generalize vetStatus fs required path = verdict at hverdict ⊢
  cases hverdict with
  | trusted found hfound => rw [hfound.unique h]
  | missing hm => exact absurd hm h.not_missing
  | untrusted reason hm ht => exact absurd h (ht status)

/-- Without an owner that is required, no fewer files are trusted. -/
theorem Trusted.ownerless (h : Trusted fs required path status) : Trusted fs none path status where
  regular := h.regular
  absolute := h.absolute
  outOfReach := nofun

end

/-! ## Policies -/

variable {σ : Type}

/-- A policy, with a record of what it was asked. -/
def FilePolicy.recorded (policy : FilePolicy σ) : FilePolicy (σ × List (String × FileStatus)) :=
  fun path status state =>
    let (verdict, after) := policy path status state.1
    (verdict, after, state.2 ++ [(path, status)])

/-- What vetting decides, and when a policy is asked. -/
structure Decided (fs : FileSystem) (rules : VettingRules σ) (path : String) (state : σ) :
    Prop where
  accepted_iff : (vet fs rules path state).1 = .ok () ↔
    ∃ status, Trusted fs rules.owner path status ∧
      ∀ policy, rules.policy = some policy → (policy path status state).1 = .ok ()
  notFound_iff : ∀ file, (vet fs rules path state).1 = .error (.notFound file) ↔
    file = path ∧ Missing fs path
  rejected_iff : ∀ file reason,
    (vet fs rules path state).1 = .error (.rejectedByPolicy file reason) ↔
      file = path ∧ ∃ status policy, Trusted fs rules.owner path status ∧
        rules.policy = some policy ∧ (policy path status state).1 = .error reason
  /-- In all other cases the file is not trusted. -/
  untrusted_iff : (∃ reason, (vet fs rules path state).1 = .error (.untrustedFile path reason)) ↔
    ¬ Missing fs path ∧ ∀ status, ¬ Trusted fs rules.owner path status
  /-- So it is with a path that breaks off in any other way, such as where a directory may not be
  searched. -/
  unreached : ∀ fault, fs.Breaks path fault → fault ≠ .missing → fault ≠ .notADirectory →
    (vet fs rules path state).1 =
      .error (.untrustedFile path ("cannot stat file: " ++ fault.message))
  /-- The policy is asked once if the file is trusted, and not at all otherwise. -/
  asked : ∀ policy, rules.policy = some policy → ∃ questions,
    vet fs ⟨rules.owner, some (FilePolicy.recorded policy)⟩ path (state, []) =
      ((vet fs rules path state).1, (vet fs rules path state).2, questions) ∧
    ((∃ status, Trusted fs rules.owner path status ∧ questions = [(path, status)]) ∨
      (∀ status, ¬ Trusted fs rules.owner path status) ∧ questions = [])
  ownerless : (vet fs rules path state).1 = .ok () →
    (vet fs ⟨none, rules.policy⟩ path state).1 = .ok ()
  policyless : (vet fs rules path state).1 = .ok () →
    (vet fs ⟨rules.owner, none⟩ path state).1 = .ok ()

section

variable {fs : FileSystem} {required : Option Nat} {path : String}

/-- What is reported of a file that is not trusted does not depend on the policy. -/
theorem vet_of_not_trusted (h : ∀ status, ¬ Trusted fs required path status) :
    ∃ e, (∀ {τ : Type} (policy : Option (FilePolicy τ)) (state : τ),
        vet fs ⟨required, policy⟩ path state = (.error e, state)) ∧
      (Missing fs path ∧ e = .notFound path ∨
        ¬ Missing fs path ∧ ∃ reason, e = .untrustedFile path reason) := by
  have hverdict := vetStatus_verdict fs required path
  generalize hv : vetStatus fs required path = verdict at hverdict
  cases hverdict with
  | trusted found hfound => exact absurd hfound (h found)
  | missing hm => exact ⟨_, fun policy state => by simp only [vet, hv], .inl ⟨hm, rfl⟩⟩
  | untrusted reason hm ht =>
      exact ⟨_, fun policy state => by simp only [vet, hv], .inr ⟨hm, reason, rfl⟩⟩

theorem vet_without_policy {status : FileStatus} (h : Trusted fs required path status)
    (state : σ) : vet fs ⟨required, none⟩ path state = (.ok (), state) := by
  simp only [vet, vetStatus_of_trusted h]

theorem vet_with_policy {status : FileStatus} (h : Trusted fs required path status)
    (policy : FilePolicy σ) (state : σ) :
    vet fs ⟨required, some policy⟩ path state =
      ((policy path status state).1.mapError (.rejectedByPolicy path),
        (policy path status state).2) := by
  simp only [vet, vetStatus_of_trusted h]

theorem vet_eq_ok_iff {policy : Option (FilePolicy σ)} {state : σ} :
    (vet fs ⟨required, policy⟩ path state).1 = .ok () ↔
      ∃ status, Trusted fs required path status ∧
        ∀ p, policy = some p → (p path status state).1 = .ok () := by
  by_cases h : ∃ status, Trusted fs required path status
  · obtain ⟨status, ht⟩ := h
    have honly : (∃ found, Trusted fs required path found ∧
        ∀ p, policy = some p → (p path found state).1 = .ok ()) ↔
        ∀ p, policy = some p → (p path status state).1 = .ok () := by
      constructor
      · rintro ⟨found, hfound, hpolicy⟩
        rwa [hfound.unique ht] at hpolicy
      · exact fun hpolicy => ⟨status, ht, hpolicy⟩
    rw [honly]
    cases policy with
    | none => simp [vet_without_policy ht]
    | some p => simp [vet_with_policy ht, mapError_eq_ok_iff]
  · rw [not_exists] at h
    obtain ⟨e, hvet, _⟩ := vet_of_not_trusted h
    rw [hvet]
    simp [h]

theorem vet_eq_rejected_iff {policy : Option (FilePolicy σ)} {state : σ} {file reason : String} :
    (vet fs ⟨required, policy⟩ path state).1 = .error (.rejectedByPolicy file reason) ↔
      file = path ∧ ∃ status p, Trusted fs required path status ∧ policy = some p ∧
        (p path status state).1 = .error reason := by
  constructor
  · intro hrejected
    by_cases h : ∃ status, Trusted fs required path status
    · obtain ⟨status, ht⟩ := h
      cases policy with
      | none => simp [vet_without_policy ht] at hrejected
      | some p =>
          rw [vet_with_policy ht, mapError_eq_error_iff] at hrejected
          obtain ⟨given, hp, hreason⟩ := hrejected
          cases hreason
          exact ⟨rfl, status, p, ht, rfl, hp⟩
    · rw [not_exists] at h
      obtain ⟨e, hvet, hreport⟩ := vet_of_not_trusted h
      rw [hvet] at hrejected
      rcases hreport with ⟨_, rfl⟩ | ⟨_, _, rfl⟩ <;> cases hrejected
  · rintro ⟨rfl, status, p, ht, rfl, hp⟩
    rw [vet_with_policy ht, hp, mapError_error]

theorem vet_eq_notFound_iff {policy : Option (FilePolicy σ)} {state : σ} {file : String} :
    (vet fs ⟨required, policy⟩ path state).1 = .error (.notFound file) ↔
      file = path ∧ Missing fs path := by
  by_cases h : ∃ status, Trusted fs required path status
  · obtain ⟨status, ht⟩ := h
    cases policy with
    | none => simp [vet_without_policy ht, ht.not_missing]
    | some p => simp [vet_with_policy ht, mapError_eq_error_iff, ht.not_missing]
  · rw [not_exists] at h
    obtain ⟨e, hvet, hreport⟩ := vet_of_not_trusted h
    rw [hvet]
    rcases hreport with ⟨hm, rfl⟩ | ⟨hm, _, rfl⟩
    · simp [hm, eq_comm]
    · simp [hm]

theorem exists_untrusted_iff {policy : Option (FilePolicy σ)} {state : σ} :
    (∃ reason, (vet fs ⟨required, policy⟩ path state).1 = .error (.untrustedFile path reason)) ↔
      ¬ Missing fs path ∧ ∀ status, ¬ Trusted fs required path status := by
  by_cases h : ∃ status, Trusted fs required path status
  · have hno : ¬ ∀ status, ¬ Trusted fs required path status := fun hall => h.elim hall
    obtain ⟨status, ht⟩ := h
    cases policy with
    | none => simp [vet_without_policy ht, hno]
    | some p => simp [vet_with_policy ht, mapError_eq_error_iff, hno]
  · rw [not_exists] at h
    obtain ⟨e, hvet, hreport⟩ := vet_of_not_trusted h
    rw [hvet]
    rcases hreport with ⟨hm, rfl⟩ | ⟨hm, reason, rfl⟩
    · simp [hm]
    · simp [hm, h]

theorem vet_of_breaks {fault : FileFault} (h : fs.Breaks path fault) (hmissing : fault ≠ .missing)
    (hdirectory : fault ≠ .notADirectory) (policy : Option (FilePolicy σ)) (state : σ) :
    vet fs ⟨required, policy⟩ path state =
      (.error (.untrustedFile path ("cannot stat file: " ++ fault.message)), state) := by
  have hstatus : fs.status path = .error fault := by
    rw [FileSystem.status, h.entry_eq]
    rfl
  cases fault with
  | missing => exact absurd rfl hmissing
  | notADirectory => exact absurd rfl hdirectory
  | _ => simp only [vet, vetStatus, hstatus]

theorem vet_recorded (policy : FilePolicy σ) (state : σ) :
    ∃ questions, vet fs ⟨required, some (FilePolicy.recorded policy)⟩ path (state, []) =
        ((vet fs ⟨required, some policy⟩ path state).1,
          (vet fs ⟨required, some policy⟩ path state).2, questions) ∧
      ((∃ status, Trusted fs required path status ∧ questions = [(path, status)]) ∨
        (∀ status, ¬ Trusted fs required path status) ∧ questions = []) := by
  by_cases h : ∃ status, Trusted fs required path status
  · obtain ⟨status, ht⟩ := h
    refine ⟨[(path, status)], ?_, .inl ⟨status, ht, rfl⟩⟩
    rw [vet_with_policy ht, vet_with_policy ht]
    rfl
  · rw [not_exists] at h
    obtain ⟨e, hvet, _⟩ := vet_of_not_trusted h
    refine ⟨[], ?_, .inr ⟨h, rfl⟩⟩
    rw [hvet, hvet]

end

/-- Vetting decides by what the path leads to, by who can change the file, and by the policy, which
is asked last and about trusted files only. -/
theorem vet_decides (fs : FileSystem) (rules : VettingRules σ) (path : String) (state : σ) :
    Decided fs rules path state := by
  obtain ⟨required, policy⟩ := rules
  constructor
  case accepted_iff => exact vet_eq_ok_iff
  case notFound_iff => exact fun file => vet_eq_notFound_iff
  case rejected_iff => exact fun file reason => vet_eq_rejected_iff
  case untrusted_iff => exact exists_untrusted_iff
  case unreached =>
    intro fault hbreaks hmissing hdirectory
    rw [vet_of_breaks hbreaks hmissing hdirectory]
  case asked =>
    rintro p rfl
    exact vet_recorded p state
  case ownerless =>
    intro haccepted
    obtain ⟨status, ht, hpolicy⟩ := vet_eq_ok_iff.mp haccepted
    exact vet_eq_ok_iff.mpr ⟨status, ht.ownerless, hpolicy⟩
  case policyless =>
    intro haccepted
    obtain ⟨status, ht, _⟩ := vet_eq_ok_iff.mp haccepted
    rw [vet_without_policy ht]

/-- In a directory that may not be searched nothing counts as missing, be it there or not. -/
example : ∀ path ∈ ["/secret/x.so", "/secret/none.so"],
    (vet (.holding [(["secret"], ⟨.directory, 0, 0, 0o700⟩),
        (["secret", "x.so"], .plainFile ByteArray.empty)] ⟨1000, 1000, []⟩)
      ⟨some 1000, none⟩ path ()).1 =
      .error (.untrustedFile path "cannot stat file: Permission denied (os error 13)") := by
  decide +kernel

end PluginHost
