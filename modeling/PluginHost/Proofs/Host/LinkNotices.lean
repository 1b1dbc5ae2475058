import Mathlib.Data.List.Nodup
import PluginHost.Host.Linking
import PluginHost.Proofs.Info.Additions
import PluginHost.Proofs.Results

/-! # What an instance is told of its links

While descriptions come and go, an instance is told of a description exactly when it is linked to
it and was not linked to it before. Whenever it is told, the link is there already. -/

namespace PluginHost

variable {σ : Type}

namespace Host

/-! ## Numbers of descriptions -/

/-- A number stands for one description that is alive, and the numbers to come for none. -/
structure Numbered (h : Host σ) : Prop where
  below : ∀ r ∈ h.liveRecords, r.id < h.nextRecord
  unique : ∀ r ∈ h.liveRecords, ∀ s ∈ h.liveRecords, r.id = s.id → r = s

variable {h after : Host σ} {number : Nat} {r s : Record}

theorem numbered_fresh (machine : σ) : (fresh machine).Numbered := by
  constructor
  · intro r hr
    cases hr
  · intro r hr
    cases hr

/-- Numbers stay unique when the new descriptions have the numbers that come next. -/
theorem Numbered.of_new (hh : h.Numbered) (new : List Record)
    (hlive : ∀ r ∈ after.liveRecords, r ∈ h.liveRecords ∨ r ∈ new)
    (hids : new.map Record.id = List.range' h.nextRecord new.length)
    (hnext : after.nextRecord = h.nextRecord + new.length) : after.Numbered := by
  have hrange : ∀ r ∈ new, h.nextRecord ≤ r.id ∧ r.id < h.nextRecord + new.length := by
    intro r hr
    have hmem : r.id ∈ List.range' h.nextRecord new.length :=
      hids ▸ List.mem_map_of_mem hr
    simpa using hmem
  have hnodup : (new.map Record.id).Nodup := hids ▸ List.nodup_range'
  constructor
  · intro r hr
    rcases hlive r hr with hold | hnew
    · have := hh.below r hold
      omega
    · have := hrange r hnew
      omega
  · intro r hr s hs heq
    rcases hlive r hr with hr | hr <;> rcases hlive s hs with hs | hs
    · exact hh.unique r hr s hs heq
    · have := hh.below r hr
      have := hrange s hs
      omega
    · have := hh.below s hs
      have := hrange r hr
      omega
    · exact List.inj_on_of_nodup_map hnodup hr hs heq

theorem Numbered.of_fewer (hh : h.Numbered)
    (hlive : ∀ r ∈ after.liveRecords, r ∈ h.liveRecords)
    (hnext : after.nextRecord = h.nextRecord) : after.Numbered :=
  hh.of_new [] (fun r hr => .inl (hlive r hr)) rfl hnext

theorem mem_liveRecords : r ∈ h.liveRecords ↔ r ∈ h.records.things ∨ r ∈ h.catalog.records := by
  simp [liveRecords]

theorem mem_liveRecords_hold {name : String} (hr : r ∈ (h.hold name s).liveRecords) :
    r = s ∨ r ∈ h.liveRecords := by
  rcases mem_liveRecords.mp hr with hheld | hlisted
  · exact (Named.mem_things_of_put hheld).imp_right fun hr => mem_liveRecords.mpr (.inl hr)
  · exact .inr (mem_liveRecords.mpr (.inr hlisted))

theorem Numbered.describe (hh : h.Numbered) (name : String) (info : PluginInfo) :
    (h.describe name info).Numbered := by
  refine hh.of_new [⟨h.nextRecord, info⟩] ?_ rfl rfl
  intro r hr
  rcases mem_liveRecords_hold hr with rfl | hr
  · exact .inr (List.mem_singleton_self _)
  · exact .inl hr

theorem Numbered.hold (hh : h.Numbered) (name : String) (hs : s ∈ h.liveRecords) :
    (h.hold name s).Numbered := by
  refine hh.of_fewer ?_ rfl
  intro r hr
  rcases mem_liveRecords_hold hr with rfl | hr
  · exact hs
  · exact hr

theorem Numbered.dropRecord (hh : h.Numbered) (name : String) :
    (h.dropRecord name).Numbered := by
  refine hh.of_fewer ?_ rfl
  intro r hr
  rcases mem_liveRecords.mp hr with hheld | hlisted
  · exact mem_liveRecords.mpr (.inl (Named.mem_things_of_remove hheld))
  · exact mem_liveRecords.mpr (.inr hlisted)

theorem enroll_eq_ok {info : PluginInfo} (hok : h.enroll info = .ok (r, after)) :
    r = ⟨h.nextRecord, info⟩ ∧ ∃ grown, h.catalog.add r = .ok grown ∧
      after = { h with catalog := grown, nextRecord := h.nextRecord + 1 } := by
  cases hadd : h.catalog.add ⟨h.nextRecord, info⟩ with
  | error e => simp [enroll, register, hadd] at hok
  | ok grown =>
      simp only [enroll, register, hadd, Except.ok.injEq, Prod.mk.injEq] at hok
      obtain ⟨rfl, rfl⟩ := hok
      exact ⟨rfl, grown, hadd, rfl⟩

theorem scan_eq_ok {files : FileSystem} {directory : String}
    (hok : h.scan files directory = some (.ok after)) :
    ∃ catalog, Catalog.scan files h.nextRecord directory = some (.ok catalog) ∧
      after = { h with
        catalog := catalog
        nextRecord := h.nextRecord + catalog.records.length } := by
  obtain ⟨scanned, hscan, hscanned⟩ := Option.map_eq_some_iff.mp hok
  obtain ⟨catalog, rfl, hafter⟩ := map_eq_ok.mp hscanned
  exact ⟨catalog, hscan, hafter.symm⟩

theorem Numbered.enroll (hh : h.Numbered) {info : PluginInfo}
    (hok : h.enroll info = .ok (r, after)) : after.Numbered := by
  obtain ⟨rfl, grown, hgrown, rfl⟩ := enroll_eq_ok hok
  refine hh.of_new [⟨h.nextRecord, info⟩] ?_ rfl rfl
  intro r hr
  rcases mem_liveRecords.mp hr with hheld | hlisted
  · exact .inl (mem_liveRecords.mpr (.inl hheld))
  · rw [show grown.records = _ from Catalog.records_add hgrown] at hlisted
    rcases List.mem_append.mp hlisted with hlisted | hnew
    · exact .inl (mem_liveRecords.mpr (.inr hlisted))
    · exact .inr hnew

theorem Numbered.scan (hh : h.Numbered) {files : FileSystem} {directory : String}
    (hok : h.scan files directory = some (.ok after)) : after.Numbered := by
  obtain ⟨catalog, hcatalog, rfl⟩ := scan_eq_ok hok
  refine hh.of_new catalog.records ?_ (Catalog.ids_scan hcatalog) rfl
  intro r hr
  exact (mem_liveRecords.mp hr).imp_left fun hheld => mem_liveRecords.mpr (.inl hheld)

/-! ## One step -/

theorem relink_eq (h : Host σ) (number : Nat) (target : Option Record) :
    h.relink number target =
      { h with instances := (h.relink number target).instances } := by
  unfold relink
  split <;> rfl

@[simp] theorem liveRecords_relink (h : Host σ) (number : Nat) (target : Option Record) :
    (h.relink number target).liveRecords = h.liveRecords := by
  rw [relink_eq]
  rfl

theorem instance_relink {p : EditorPlugin} (hp : h.instances[number]? = some p)
    (target : Option Record) :
    (h.relink number target).instances[number]? =
      some (p.setRecord h.isAlive (target.map h.linkedAs)) := by
  obtain ⟨hlt, _⟩ := List.getElem?_eq_some_iff.mp hp
  simp only [relink, hp, update]
  exact List.getElem?_set_self hlt

theorem Numbered.relink (hh : h.Numbered) (number : Nat) (target : Option Record) :
    (h.relink number target).Numbered := by
  refine hh.of_fewer (fun r hr => by simpa using hr) ?_
  rw [relink_eq]

theorem isAlive_of_mem (hr : r ∈ h.liveRecords) : h.isAlive r.id = true :=
  List.any_eq_true.mpr ⟨r, hr, by simp⟩

/-- An instance shows a living description exactly when its link is to that number. -/
theorem Numbered.linkedRecord?_eq_iff (hh : h.Numbered) (hr : r ∈ h.liveRecords)
    (p : EditorPlugin) : h.linkedRecord? p = some r ↔ p.link.isLinkedTo r.id = true := by
  have halive := isAlive_of_mem hr
  have hfound : h.liveRecord? r.id = some r := by
    cases hs : h.liveRecord? r.id with
    | none => simpa using List.find?_eq_none.mp hs r hr
    | some s =>
        have hid : s.id = r.id := by simpa using List.find?_some hs
        rw [hh.unique s (List.mem_of_find?_eq_some hs) r hr hid]
  simp only [WeakLink.isLinkedTo, beq_iff_eq]
  constructor
  · intro hshown
    obtain ⟨id, hid, hs⟩ := Option.bind_eq_some_iff.mp hshown
    have hr : r.id = id := by simpa using List.find?_some hs
    rw [hr]
    exact (Option.filter_eq_some_iff.mp hid).1
  · intro hlink
    simp [linkedRecord?, WeakLink.get?, hlink, Option.filter_some, halive, hfound]

theorem linkOf?_eq {p : EditorPlugin} (hp : h.instances[number]? = some p) :
    h.linkOf? number = h.linkedRecord? p := by
  simp [linkOf?, hp]

end Host

theorem EditorPlugin.link_setRecord (p : EditorPlugin) (alive : Nat → Bool) (t : Linked) :
    (p.setRecord alive (some t)).link = (p.relinked alive (some t)).link := by
  rw [setRecord_some]
  split <;> rfl

namespace Host

variable {h : Host σ} {number : Nat} {r s : Record} {p : EditorPlugin}

/-- In a host in which the description is alive, an instance that was linked to it shows it, told
or not. -/
theorem Numbered.shows_relinked (hh : h.Numbered) (hr : r ∈ h.liveRecords) (p : EditorPlugin)
    (alive : Nat → Bool) (t : EditorPlugin.Linked) (ht : t.record = r.id) :
    h.linkedRecord? (p.relinked alive (some t)) = some r := by
  rw [hh.linkedRecord?_eq_iff hr, ← ht]
  exact p.link.isLinkedTo_set alive t.record

theorem Numbered.linkOf?_relink (hh : h.Numbered) (hp : h.instances[number]? = some p)
    (hr : r ∈ h.liveRecords) : (h.relink number (some r)).linkOf? number = some r := by
  have halive : r ∈ (h.relink number (some r)).liveRecords := by simpa using hr
  rw [linkOf?_eq (h.instance_relink hp _), (hh.relink number _).linkedRecord?_eq_iff halive,
    Option.map_some, EditorPlugin.link_setRecord]
  exact p.link.isLinkedTo_set h.isAlive r.id

theorem linkOf?_unlink (hp : h.instances[number]? = some p) :
    (h.relink number none).linkOf? number = none := by
  rw [linkOf?_eq (h.instance_relink hp none)]
  simp [EditorPlugin.setRecord_none, EditorPlugin.relinked, linkedRecord?, WeakLink.set,
    WeakLink.get?, WeakLink.empty]

theorem notice?_link (number : Nat) (hr : r ∈ h.liveRecords) :
    h.notice? number (.link r) = if h.linkOf? number = some r then none
      else some (h.notice r) := by
  by_cases hshown : h.linkOf? number = some r
  · simp [notice?, hshown]
  · simp [notice?, hr, hshown]

/-- The notice is what comes of telling the instance after its link is there. Before that it would
show something else. -/
theorem history_notify (hr : r ∈ h.liveRecords) (p : EditorPlugin) :
    ((p.relinked h.isAlive (some (h.linkedAs r))).notify h.isAlive (h.linkedAs r)).history =
      p.history ++ [h.notice r] := by
  have hshown : (p.relinked h.isAlive (some (h.linkedAs r))).link.get? h.isAlive = some r.id :=
    WeakLink.get?_of_isLinkedTo (p.link.isLinkedTo_set h.isAlive r.id) (isAlive_of_mem hr)
  simp only [EditorPlugin.notify, hshown]
  rfl

theorem Numbered.history_relink (hh : h.Numbered) (hp : h.instances[number]? = some p)
    (hr : r ∈ h.liveRecords) :
    (p.setRecord h.isAlive (some (h.linkedAs r))).history =
      p.history ++ (h.notice? number (.link r)).toList := by
  have hlinked : h.linkOf? number = some r ↔ p.link.isLinkedTo (h.linkedAs r).record = true := by
    rw [linkOf?_eq hp, hh.linkedRecord?_eq_iff hr]
    rfl
  rw [EditorPlugin.setRecord_some, notice?_link number hr]
  by_cases hshown : h.linkOf? number = some r
  · simp [if_pos (hlinked.mp hshown), if_pos hshown, EditorPlugin.relinked]
  · rw [if_neg (mt hlinked.mpr hshown), if_neg hshown, history_notify hr]
    rfl

/-- After any step the instance was told what it has to be told, and nothing else. -/
theorem Numbered.history_step (hh : h.Numbered) (hp : h.instances[number]? = some p)
    (s : LinkingStep) :
    ∃ q, (h.linkingStep number s).instances[number]? = some q ∧
      q.history = p.history ++ (h.notice? number s).toList := by
  cases s with
  | describe name info => exact ⟨p, hp, by simp [notice?]⟩
  | share name record =>
      refine ⟨p, ?_, by simp [notice?]⟩
      simp only [linkingStep]
      split <;> exact hp
  | drop name => exact ⟨p, hp, by simp [notice?]⟩
  | enroll info =>
      refine ⟨p, ?_, by simp [notice?]⟩
      cases hok : h.enroll info with
      | error e => simpa [linkingStep, hok, Except.map, Except.toOption] using hp
      | ok result =>
          obtain ⟨_, _, _, hafter⟩ := enroll_eq_ok hok
          simpa [linkingStep, hok, Except.map, Except.toOption, hafter] using hp
  | scan files directory =>
      refine ⟨p, ?_, by simp [notice?]⟩
      rcases hok : h.scan files directory with _ | (e | after)
      · simpa [linkingStep, hok] using hp
      · simpa [linkingStep, hok, Except.toOption] using hp
      · obtain ⟨_, _, hafter⟩ := scan_eq_ok hok
        simpa [linkingStep, hok, Except.toOption, hafter] using hp
  | link record =>
      by_cases hr : record ∈ h.liveRecords
      · refine ⟨_, ?_, hh.history_relink hp hr⟩
        simpa [linkingStep, hr] using h.instance_relink hp (some record)
      · exact ⟨p, by simpa [linkingStep, hr] using hp, by simp [notice?, hr]⟩
  | unlink =>
      refine ⟨_, h.instance_relink hp none, ?_⟩
      simp [EditorPlugin.setRecord_none, EditorPlugin.relinked, notice?]

theorem Numbered.step (hh : h.Numbered) (number : Nat) (s : LinkingStep) :
    (h.linkingStep number s).Numbered := by
  cases s with
  | describe name info => exact hh.describe name info
  | share name record =>
      by_cases hr : record ∈ h.liveRecords
      · simpa [linkingStep, hr] using hh.hold name hr
      · simpa [linkingStep, hr] using hh
  | drop name => exact hh.dropRecord name
  | enroll info =>
      cases hok : h.enroll info with
      | error e => simpa [linkingStep, hok, Except.map, Except.toOption] using hh
      | ok result => simpa [linkingStep, hok, Except.map, Except.toOption] using hh.enroll hok
  | scan files directory =>
      rcases hok : h.scan files directory with _ | (e | after)
      · simpa [linkingStep, hok] using hh
      · simpa [linkingStep, hok, Except.toOption] using hh
      · simpa [linkingStep, hok, Except.toOption] using hh.scan hok
  | link record =>
      by_cases hr : record ∈ h.liveRecords
      · simpa [linkingStep, hr] using hh.relink number (some record)
      · simpa [linkingStep, hr] using hh
  | unlink => exact hh.relink number none

/-! ## All steps -/

theorem Numbered.run (hh : h.Numbered) (hp : h.instances[number]? = some p)
    (steps : List LinkingStep) :
    (h.linkingRun number steps).Numbered ∧
      ∃ q, (h.linkingRun number steps).instances[number]? = some q ∧
        q.history = p.history ++ h.notices number steps := by
  induction steps generalizing h p with
  | nil => exact ⟨hh, p, hp, by simp [notices]⟩
  | cons s rest ih =>
      obtain ⟨q, hq, hstep⟩ := hh.history_step hp s
      obtain ⟨hrun, last, hlast, hrest⟩ := ih (hh.step number s) hq
      exact ⟨hrun, last, hlast, by simp [hrest, hstep, notices]⟩

theorem linkingStep_link (hr : r ∈ h.liveRecords) :
    h.linkingStep number (.link r) = h.relink number (some r) := by
  simp only [linkingStep, if_pos hr]

@[simp] theorem notice_relink (h : Host σ) (number : Nat) (target : Option Record) (r : Record) :
    (h.relink number target).notice r = h.notice r := by
  rw [relink_eq]
  rfl

theorem Numbered.notices_again (hh : h.Numbered) (hp : h.instances[number]? = some p)
    (hr : r ∈ h.liveRecords) (hshown : h.linkOf? number = some r) (k : Nat) :
    h.notices number (List.replicate k (.link r)) = [] := by
  induction k generalizing h p with
  | zero => rfl
  | succ k ih =>
      have hrest := ih (hh.relink number (some r)) (h.instance_relink hp _) (by simpa using hr)
        (hh.linkOf?_relink hp hr)
      simp [List.replicate_succ, notices, notice?_link number hr, hshown, linkingStep_link hr,
        hrest]

theorem notices_of_relinked (hr : r ∈ h.liveRecords) {target : Option Record}
    (hother : (h.relink number target).linkOf? number ≠ some r) :
    (h.relink number target).notices number [.link r] = [h.notice r] := by
  have halive : r ∈ (h.relink number target).liveRecords := by simpa using hr
  simp [notices, notice?_link number halive, hother]

/-- What comes of linking an instance to a description. -/
structure LinksTo (h : Host σ) (number : Nat) (p : EditorPlugin) (r : Record) : Prop where
  /-- It is told at the end, and only if it was linked to something else. -/
  told : (h.linkingStep number (.link r)).instances[number]? =
    some (if h.linkOf? number = some r then p.relinked h.isAlive (some (h.linkedAs r))
      else (p.relinked h.isAlive (some (h.linkedAs r))).notify h.isAlive (h.linkedAs r))
  /-- Whatever happens to other descriptions while it is told, it shows this one. -/
  shown_meanwhile : ∀ g : Host σ, g.Numbered → r ∈ g.liveRecords →
    g.linkedRecord? (p.relinked h.isAlive (some (h.linkedAs r))) = some r
  shown_after : (h.linkingStep number (.link r)).linkOf? number = some r
  silent_again : ∀ k,
    (h.linkingStep number (.link r)).notices number (List.replicate k (.link r)) = []
  told_after_unlink : (h.linkingStep number .unlink).notices number [.link r] = [h.notice r]
  told_after_other : ∀ s ∈ h.liveRecords, s ≠ r →
    (h.linkingStep number (.link s)).notices number [.link r] = [h.notice r]

theorem Numbered.linksTo (hh : h.Numbered) (hp : h.instances[number]? = some p)
    (hr : r ∈ h.liveRecords) : h.LinksTo number p r := by
  have hafter : (h.relink number (some r)).linkOf? number = some r := hh.linkOf?_relink hp hr
  refine ⟨?_, ?_, ?_, ?_, ?_, ?_⟩
  · have hlinked : h.linkOf? number = some r ↔ p.link.isLinkedTo (h.linkedAs r).record = true := by
      rw [linkOf?_eq hp, hh.linkedRecord?_eq_iff hr]
      rfl
    rw [linkingStep_link hr, h.instance_relink hp, Option.map_some, EditorPlugin.setRecord_some]
    simp only [hlinked]
  · intro g hg halive
    exact hg.shows_relinked halive p h.isAlive (h.linkedAs r) rfl
  · rw [linkingStep_link hr, hafter]
  · intro k
    rw [linkingStep_link hr]
    exact (hh.relink number _).notices_again (h.instance_relink hp _) (by simpa using hr) hafter k
  · refine notices_of_relinked hr ?_
    simp [linkOf?_unlink hp]
  · intro s hs hne
    rw [linkingStep_link hs]
    refine notices_of_relinked hr ?_
    simpa [hh.linkOf?_relink hp hs] using hne

/-- While descriptions are made, shared and given up, an instance is told of a description once for
each time it is linked to it and was not linked to it before, and of nothing else. -/
theorem told_once_per_new_link (machine : σ) (p : EditorPlugin) (steps : List LinkingStep) :
    let start := ((fresh machine).adopt p).2
    let h := start.linkingRun 0 steps
    ∃ q, h.instances[0]? = some q ∧ q.history = p.history ++ start.notices 0 steps ∧
      ∀ r ∈ h.liveRecords, h.LinksTo 0 q r := by
  intro start h
  have hstart : start.Numbered := (numbered_fresh machine).of_fewer (fun r hr => hr) rfl
  have hp : start.instances[0]? = some p := rfl
  obtain ⟨hh, q, hq, hhistory⟩ := hstart.run hp steps
  exact ⟨q, hq, hhistory, fun r hr => hh.linksTo hq hr⟩

end Host

end PluginHost
