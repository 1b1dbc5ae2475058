import Mathlib.Data.List.Induction
import PluginHost.WeakLink.Memory

/-! # What a link shows

Whatever is done with objects and a link, the link shows the object to which it was set last, as
long as somebody holds that object. The memory behind a link is not given away, so an address
never comes to stand for another object under the link. -/

namespace PluginHost.LinkedMemory

/-! ## Objects and their memory -/

/-- The object is held, or the link is to it. -/
def Pinned (m : LinkedMemory) (target : Option Nat) (object : Nat) : Prop :=
  object ∈ m.holders.held.things ∨ target = some object

/-- The link is to the target, and no two objects that still matter share their memory. -/
structure Tracks (m : LinkedMemory) (target : Option Nat) : Prop where
  sized : m.addresses.length = m.holders.next
  made : ∀ o, m.Pinned target o → o < m.holders.next
  apart : ∀ o p, m.Pinned target o → m.Pinned target p → m.addresses[o]? = m.addresses[p]? → o = p
  linked : m.link.target = target.bind fun o => m.addresses[o]?

variable {m : LinkedMemory} {target : Option Nat} {o : Nat}

theorem Tracks.address (h : m.Tracks target) (ho : m.Pinned target o) :
    ∃ a, m.addresses[o]? = some a := by
  have hlt : o < m.addresses.length := h.sized ▸ h.made o ho
  exact ⟨m.addresses[o], List.getElem?_eq_getElem hlt⟩

/-- What is found in the memory of an object is that object or nothing. -/
theorem Tracks.objectAt? (h : m.Tracks target) (ho : m.Pinned target o) {a : Nat}
    (ha : m.addresses[o]? = some a) :
    m.objectAt? a = if m.holders.isAlive o then some o else none := by
  have honly : ∀ p, m.objectAt? a = some p → p ∈ m.holders.held.things ∧ p = o := by
    intro p hp
    have hmem := List.mem_of_find?_eq_some hp
    have haddress : m.addresses[p]? = some a := by simpa using List.find?_some hp
    exact ⟨hmem, h.apart p o (.inl hmem) ho (haddress.trans ha.symm)⟩
  cases hp : m.objectAt? a with
  | some p =>
      obtain ⟨hmem, rfl⟩ := honly p hp
      simp [(m.holders.isAlive_iff p).mpr hmem]
  | none =>
      have hdead : ¬ m.holders.isAlive o = true := by
        intro halive
        rw [LinkedMemory.objectAt?, List.find?_eq_none] at hp
        exact hp o ((m.holders.isAlive_iff o).mp halive) (by simp [ha])
      simp [hdead]

/-! ## What can be seen of a link -/

theorem Tracks.get?_eq (h : m.Tracks target) : m.get? = target.filter m.holders.isAlive := by
  cases target with
  | none => simp [get?, WeakLink.get?, h.linked]
  | some o =>
      obtain ⟨a, ha⟩ := h.address (.inr rfl)
      have hfound := h.objectAt? (.inr rfl) ha
      have hlink : m.link.target = some a := by simpa [ha] using h.linked
      by_cases halive : m.holders.isAlive o = true
      · simp [get?, WeakLink.get?, hlink, Option.filter_some, isAliveAt, hfound, halive]
      · simp [get?, WeakLink.get?, hlink, Option.filter_some, isAliveAt, hfound, halive]

theorem Tracks.isLinkedTo_iff (h : m.Tracks target) (ho : m.holders.isAlive o = true) :
    m.isLinkedTo o = true ↔ target = some o := by
  have hheld : o ∈ m.holders.held.things := (m.holders.isAlive_iff o).mp ho
  obtain ⟨a, ha⟩ := h.address (o := o) (.inl hheld)
  have hiff : m.isLinkedTo o = true ↔ m.link.target = some a := by
    simp [isLinkedTo, ha, WeakLink.isLinkedTo]
  rw [hiff, h.linked]
  constructor
  · intro hlinked
    obtain ⟨p, rfl, hp⟩ := Option.bind_eq_some_iff.mp hlinked
    rw [h.apart p o (.inr rfl) (.inl hheld) (hp.trans ha.symm)]
  · rintro rfl
    exact ha

theorem Tracks.state_eq (h : m.Tracks target) :
    m.state = if target = none then "empty"
      else if m.get?.isSome then "linked" else "cleared" := by
  cases target with
  | none => simp [state, WeakLink.state, h.linked]
  | some o =>
      obtain ⟨a, ha⟩ := h.address (.inr rfl)
      have hlink : m.link.target = some a := by simpa [ha] using h.linked
      have hfound := h.objectAt? (.inr rfl) ha
      rw [h.get?_eq, Option.filter_some]
      by_cases halive : m.holders.isAlive o = true
      · simp [state, WeakLink.state, hlink, isAliveAt, hfound, halive]
      · simp [state, WeakLink.state, hlink, isAliveAt, hfound, halive]

/-! ## One step -/

theorem Tracks.start : start.Tracks none := by
  refine ⟨rfl, ?_, ?_, rfl⟩
  · rintro o (hheld | htarget)
    · cases hheld
    · cases htarget
  · rintro o p (hheld | htarget)
    · cases hheld
    · cases htarget

/-- An object that is pinned now was pinned before, if nobody holds anything new. -/
theorem Tracks.of_held {held : Named Nat} (h : m.Tracks target)
    (hheld : ∀ o ∈ held.things, o ∈ m.holders.held.things) :
    Tracks { m with holders := { m.holders with held := held } } target := by
  have hpinned : ∀ o, Pinned { m with holders := { m.holders with held := held } } target o →
      m.Pinned target o := fun o ho => ho.imp_left (hheld o)
  exact ⟨h.sized, fun o ho => h.made o (hpinned o ho),
    fun o p ho hp => h.apart o p (hpinned o ho) (hpinned p hp), h.linked⟩

/-- Memory that is free belongs to no object that still matters. -/
theorem Tracks.ne_of_isFree (h : m.Tracks target) {a : Nat} (hfree : m.isFree a = true)
    (ho : m.Pinned target o) : m.addresses[o]? ≠ some a := by
  intro ha
  obtain ⟨hdead, hunlinked⟩ : m.isAliveAt a = false ∧ m.link.isLinkedTo a = false := by
    simpa [isFree] using hfree
  rcases ho with hheld | rfl
  · have hfound := h.objectAt? (.inl hheld) ha
    simp [isAliveAt, hfound, (m.holders.isAlive_iff o).mpr hheld] at hdead
  · simp [WeakLink.isLinkedTo, h.linked, ha] at hunlinked

theorem Tracks.create (h : m.Tracks target) (holder : String) {a : Nat}
    (hfree : m.isFree a = true) :
    Tracks { m with holders := m.holders.create holder, addresses := m.addresses ++ [a] }
      target := by
  have hnext : (m.addresses ++ [a])[m.holders.next]? = some a := by simp [← h.sized]
  have hold : ∀ o, m.Pinned target o → (m.addresses ++ [a])[o]? = m.addresses[o]? := by
    intro o ho
    exact List.getElem?_append_left (h.sized ▸ h.made o ho)
  have hpinned : ∀ o, Pinned ⟨m.holders.create holder, m.addresses ++ [a], m.link⟩ target o →
      o = m.holders.next ∨ m.Pinned target o := by
    rintro o (hheld | htarget)
    · exact (Named.mem_things_of_put hheld).imp_right .inl
    · exact .inr (.inr htarget)
  refine ⟨by simp [h.sized, Holders.create], ?_, ?_, ?_⟩
  · intro o ho
    rcases hpinned o ho with rfl | ho
    · exact Nat.lt_succ_self _
    · exact Nat.lt_succ_of_lt (h.made o ho)
  · intro o p ho hp heq
    rcases hpinned o ho with rfl | ho <;> rcases hpinned p hp with rfl | hp
    · rfl
    · exact absurd ((hold p hp).symm.trans (heq.symm.trans hnext)) (h.ne_of_isFree hfree hp)
    · exact absurd ((hold o ho).symm.trans (heq.trans hnext)) (h.ne_of_isFree hfree ho)
    · exact h.apart o p ho hp (by rw [← hold o ho, ← hold p hp, heq])
  · cases target with
    | none => exact h.linked
    | some o => simpa [hold o (.inr rfl)] using h.linked

theorem Tracks.afterOther (h : m.Tracks target) (s : LinkStep) :
    (m.afterOther s).Tracks target := by
  cases s with
  | create holder a =>
      by_cases hfree : m.isFree a = true
      · simpa [LinkedMemory.afterOther, hfree] using h.create holder hfree
      · simpa [LinkedMemory.afterOther, hfree] using h
  | share holder source =>
      cases hfound : m.holders.find? source with
      | none => simpa [LinkedMemory.afterOther, hfound] using h
      | some object =>
          have hheld : object ∈ m.holders.held.things := Named.mem_things_of_lookup hfound
          have hshared : Tracks { m with holders := m.holders.hold holder object } target := by
            refine h.of_held fun o ho => ?_
            rcases Named.mem_things_of_put ho with rfl | ho
            · exact hheld
            · exact ho
          simpa [LinkedMemory.afterOther, hfound] using hshared
  | drop holder => exact h.of_held fun o ho => Named.mem_things_of_remove ho
  | link holder => exact h
  | unlink => exact h

/-- A link is only ever set to an object that somebody holds. -/
theorem mem_held_of_request {s : LinkStep} (h : m.request? s = some (some o)) :
    o ∈ m.holders.held.things := by
  cases s with
  | link holder =>
      obtain ⟨p, hfound, heq⟩ := Option.map_eq_some_iff.mp h
      cases heq
      exact Named.mem_things_of_lookup hfound
  | create => cases h
  | share => cases h
  | drop => cases h
  | unlink => cases h

@[simp] theorem holders_setLink (m : LinkedMemory) (next : Option Nat) :
    (m.setLink next).2.holders = m.holders := rfl

theorem target_setLink (m : LinkedMemory) (next : Option Nat) :
    (m.setLink next).2.link.target = next.bind fun o => m.addresses[o]? := by
  cases hnext : next.bind fun o => m.addresses[o]? with
  | none => simp [setLink, hnext, WeakLink.set, WeakLink.empty]
  | some a =>
      by_cases hsame : m.link.target = some a
      · simp [setLink, hnext, WeakLink.set, WeakLink.isLinkedTo, hsame]
      · simp [setLink, hnext, WeakLink.set, WeakLink.isLinkedTo, hsame]

theorem Tracks.setLink (h : m.Tracks target) {next : Option Nat}
    (hnext : ∀ o, next = some o → o ∈ m.holders.held.things) :
    (m.setLink next).2.Tracks next := by
  have hpinned : ∀ o, (m.setLink next).2.Pinned next o → m.Pinned target o := by
    rintro o (hheld | htarget)
    · exact .inl hheld
    · exact .inl (hnext o htarget)
  exact ⟨h.sized, fun o ho => h.made o (hpinned o ho),
    fun o p ho hp => h.apart o p (hpinned o ho) (hpinned p hp), m.target_setLink next⟩

theorem answer_none (m : LinkedMemory) : (m.setLink none).1 = m.get?.isSome := by
  have hanswer : (m.setLink none).1 = (m.link.get? m.isAliveAt).isSome := rfl
  rw [hanswer]
  cases hlink : m.link.target with
  | none => simp [get?, WeakLink.get?, hlink]
  | some a =>
      cases hfound : m.objectAt? a with
      | none => simp [get?, WeakLink.get?, hlink, Option.filter_some, isAliveAt, hfound]
      | some o => simp [get?, WeakLink.get?, hlink, Option.filter_some, isAliveAt, hfound]

theorem Tracks.answer_some (h : m.Tracks target) (ho : o ∈ m.holders.held.things) :
    (m.setLink (some o)).1 = !m.isLinkedTo o := by
  obtain ⟨a, ha⟩ := h.address (o := o) (.inl ho)
  by_cases hsame : m.link.isLinkedTo a = true
  · simp [LinkedMemory.setLink, WeakLink.set, isLinkedTo, ha, hsame]
  · simp [LinkedMemory.setLink, WeakLink.set, isLinkedTo, ha, hsame]

/-- Setting a link answers whether something else is shown afterwards. -/
theorem Tracks.changed_iff (h : m.Tracks target) {next : Option Nat}
    (hnext : ∀ o, next = some o → o ∈ m.holders.held.things) :
    (m.setLink next).1 = true ↔ (m.setLink next).2.get? ≠ m.get? := by
  rw [(h.setLink hnext).get?_eq, holders_setLink]
  cases next with
  | none =>
      rw [m.answer_none, Option.isSome_iff_ne_none, Option.filter_none]
      exact ne_comm
  | some o =>
      have halive : m.holders.isAlive o = true := (m.holders.isAlive_iff o).mpr (hnext o rfl)
      have hshown : target.filter m.holders.isAlive = some o ↔ target = some o := by
        rw [Option.filter_eq_some_iff]
        exact and_iff_left halive
      rw [h.answer_some (hnext o rfl), h.get?_eq, Option.filter_some, if_pos halive, ne_comm, Ne,
        hshown, ← h.isLinkedTo_iff halive]
      simp

theorem Tracks.step (h : m.Tracks target) (s : LinkStep) :
    (m.step s).Tracks ((m.request? s).getD target) := by
  cases hs : m.request? s with
  | none => simpa [LinkedMemory.step, hs] using h.afterOther s
  | some next =>
      simpa [LinkedMemory.step, hs] using h.setLink fun o ho => mem_held_of_request (ho ▸ hs)

/-! ## All steps -/

theorem Tracks.run (h : m.Tracks target) (steps : List LinkStep) :
    (m.run steps).Tracks ((m.requests steps).getLast?.getD target) := by
  induction steps generalizing m target with
  | nil => exact h
  | cons s rest ih =>
      have hlast : (m.requests (s :: rest)).getLast?.getD target =
          ((m.step s).requests rest).getLast?.getD ((m.request? s).getD target) := by
        cases hs : m.request? s with
        | none => simp [requests, hs]
        | some next => simp [requests, hs, List.getLast?_cons]
      rw [hlast]
      exact ih (h.step s)

theorem tracks_run (steps : List LinkStep) :
    (start.run steps).Tracks (start.lastTarget? steps) :=
  Tracks.start.run steps

/-- After any steps the link shows the object to which it was set last, unless nobody holds that
any more. Setting it tells whether it shows something else then, and keeps no object alive. -/
theorem link_shows_last_target (steps : List LinkStep) :
    let m := start.run steps
    let target := start.lastTarget? steps
    m.get? = target.filter m.holders.isAlive ∧
      (∀ o, m.holders.isAlive o = true → (m.isLinkedTo o = true ↔ m.get? = some o)) ∧
      (∀ s changed, m.answer? s = some changed →
        (changed = true ↔ (m.step s).get? ≠ m.get?) ∧ (m.step s).holders = m.holders) ∧
      m.state = if target = none then "empty"
        else if m.get?.isSome then "linked" else "cleared" := by
  intro m target
  have h : m.Tracks target := tracks_run steps
  refine ⟨h.get?_eq, ?_, ?_, h.state_eq⟩
  · intro o ho
    rw [h.isLinkedTo_iff ho, h.get?_eq, Option.filter_eq_some_iff]
    exact (and_iff_left ho).symm
  · intro s changed hchanged
    obtain ⟨next, hs, rfl⟩ := Option.map_eq_some_iff.mp hchanged
    have hnext : ∀ o, next = some o → o ∈ m.holders.held.things :=
      fun o ho => mem_held_of_request (ho ▸ hs)
    have hstep : m.step s = (m.setLink next).2 := by simp only [LinkedMemory.step, hs]
    rw [hstep]
    exact ⟨h.changed_iff hnext, rfl⟩

-- The second object stands where the first one stood.
example :
    (start.run [.create "a" 7, .link "a", .drop "a", .unlink, .create "b" 7, .link "b"]).get? =
      some 1 := by decide

/-- A link that knows objects by their numbers, which are never used again, does all that a link
does which knows them by their addresses. -/
theorem link_by_number_agrees (steps : List LinkStep) :
    let m := start.run steps
    let numbered : WeakLink := ⟨start.lastTarget? steps⟩
    numbered.get? m.holders.isAlive = m.get? ∧
      numbered.state m.holders.isAlive = m.state ∧
      (∀ o, m.holders.isAlive o = true → numbered.isLinkedTo o = m.isLinkedTo o) ∧
      ∀ s next, m.request? s = some next →
        numbered.set m.holders.isAlive next = ((m.setLink next).1, ⟨next⟩) := by
  intro m numbered
  have h : m.Tracks numbered.target := tracks_run steps
  have hsame : ∀ o, m.holders.isAlive o = true → numbered.isLinkedTo o = m.isLinkedTo o := by
    intro o ho
    rw [Bool.eq_iff_iff, h.isLinkedTo_iff ho]
    simp [WeakLink.isLinkedTo]
  refine ⟨h.get?_eq.symm, ?_, hsame, ?_⟩
  · rw [h.state_eq, h.get?_eq]
    cases htarget : numbered.target with
    | none => simp [WeakLink.state, htarget]
    | some o =>
        by_cases halive : m.holders.isAlive o = true
        · simp [WeakLink.state, htarget, Option.filter_some, halive]
        · simp [WeakLink.state, htarget, Option.filter_some, halive]
  · intro s next hs
    cases next with
    | none =>
        rw [m.answer_none, h.get?_eq]
        rfl
    | some o =>
        have ho : o ∈ m.holders.held.things := mem_held_of_request hs
        rw [h.answer_some ho, ← hsame o ((m.holders.isAlive_iff o).mpr ho)]
        by_cases hlinked : numbered.isLinkedTo o = true
        · have htarget : numbered = ⟨some o⟩ := by
            simpa [WeakLink.isLinkedTo, numbered] using hlinked
          simp [htarget, WeakLink.set, WeakLink.isLinkedTo]
        · simp [WeakLink.set, hlinked]

end PluginHost.LinkedMemory
