/-!
# Things under names

A table of things by name. A name stands for the thing that was put under it last. Tables that are
written out have their names in order.
-/

namespace PluginHost

abbrev Named (α : Type) := List (String × α)

namespace Named

variable {α : Type}

def remove (t : Named α) (name : String) : Named α :=
  t.filter fun entry => entry.1 != name

/-- The table with a thing under a name, instead of what was there. -/
def put (t : Named α) (name : String) (x : α) : Named α :=
  (name, x) :: t.remove name

def things (t : Named α) : List α :=
  t.map Prod.snd

@[simp] theorem lookup_put (t : Named α) (name : String) (x : α) :
    (t.put name x).lookup name = some x := by
  simp [put]

theorem mem_things_of_lookup {t : Named α} {name : String} {x : α}
    (h : t.lookup name = some x) : x ∈ t.things := by
  obtain ⟨before, after, rfl, _⟩ := List.lookup_eq_some_iff.mp h
  simp [things]

theorem mem_things_of_remove {t : Named α} {name : String} {x : α}
    (h : x ∈ (t.remove name).things) : x ∈ t.things := by
  obtain ⟨entry, hentry, rfl⟩ := List.mem_map.mp h
  exact List.mem_map_of_mem (List.mem_filter.mp hentry).1

theorem mem_things_of_put {t : Named α} {name : String} {x y : α}
    (h : x ∈ (t.put name y).things) : x = y ∨ x ∈ t.things := by
  rcases List.mem_cons.mp h with heq | hrest
  · exact .inl heq
  · exact .inr (mem_things_of_remove hrest)

theorem lookup_cons_ite (entry : String × α) (t : Named α) (name : String) :
    (entry :: t).lookup name = if name = entry.1 then some entry.2 else t.lookup name := by
  obtain ⟨key, x⟩ := entry
  by_cases hkey : name = key
  · simp [hkey]
  · simp [List.lookup_cons, beq_false_of_ne hkey, hkey]

/-! ## Names in order -/

def Sorted (t : Named α) : Prop :=
  t.Pairwise fun a b => a.1 < b.1

/-- The table with a thing at the place of its name, instead of what was there. -/
def insert (name : String) (x : α) : Named α → Named α
  | [] => [(name, x)]
  | (key, y) :: rest =>
    if name < key then (name, x) :: (key, y) :: rest
    else if name = key then (name, x) :: rest
    else (key, y) :: insert name x rest

variable {t : Named α} {name : String} {x : α}

theorem mem_insert {entry : String × α} (h : entry ∈ insert name x t) :
    entry = (name, x) ∨ entry ∈ t := by
  induction t with
  | nil => exact .inl (List.mem_singleton.mp h)
  | cons other rest ih =>
    rw [insert] at h
    split at h
    · exact List.mem_cons.mp h
    · split at h
      · exact (List.mem_cons.mp h).imp_right (List.mem_cons_of_mem _)
      · rcases List.mem_cons.mp h with rfl | h
        · exact .inr (List.mem_cons_self ..)
        · exact (ih h).imp_right (List.mem_cons_of_mem _)

theorem lookup_insert (name : String) (x : α) (t : Named α) (other : String) :
    (insert name x t).lookup other = if other = name then some x else t.lookup other := by
  induction t with
  | nil => rw [insert, lookup_cons_ite]
  | cons entry rest ih =>
    rw [insert]
    split
    · rw [lookup_cons_ite]
    · split
      next hsame =>
        rw [lookup_cons_ite, lookup_cons_ite, ← hsame]
        split <;> rfl
      next hother =>
        rw [lookup_cons_ite, ih, lookup_cons_ite]
        by_cases hname : other = name
        · rw [if_neg (hname ▸ hother), if_pos hname, if_pos hname]
        · rw [if_neg hname, if_neg hname]

theorem Sorted.insert (h : t.Sorted) (name : String) (x : α) : (t.insert name x).Sorted := by
  induction t with
  | nil => simp [Named.insert, Sorted]
  | cons other rest ih =>
    obtain ⟨below, tail⟩ := List.pairwise_cons.mp h
    rw [Named.insert]
    split
    next hless =>
      refine List.pairwise_cons.mpr ⟨fun entry hentry => ?_, h⟩
      rcases List.mem_cons.mp hentry with rfl | hentry
      · exact hless
      · exact String.lt_trans hless (below entry hentry)
    next hnot =>
      split
      next hsame =>
        exact List.pairwise_cons.mpr ⟨fun entry hentry => hsame ▸ below entry hentry, tail⟩
      next hother =>
        refine List.pairwise_cons.mpr ⟨fun entry hentry => ?_, ih tail⟩
        rcases mem_insert hentry with rfl | hentry
        · exact Std.lt_of_le_of_ne (String.not_lt.mp hnot) (Ne.symm hother)
        · exact below entry hentry

/-- A thing under a new name is only put in its place. -/
theorem insert_perm (h : name ∉ t.map Prod.fst) : (t.insert name x).Perm ((name, x) :: t) := by
  induction t with
  | nil => exact .refl _
  | cons other rest ih =>
    obtain ⟨hne, hrest⟩ := not_or.mp (mt List.mem_cons.mpr h)
    rw [insert]
    split
    · exact .refl _
    · exact ((ih hrest).cons other).trans (.swap ..)

/-- A thing under a name beyond all others is put at the end. -/
theorem insert_eq_append (h : ∀ entry ∈ t, entry.1 < name) (x : α) :
    t.insert name x = t ++ [(name, x)] := by
  induction t with
  | nil => rfl
  | cons other rest ih =>
    have hless : other.1 < name := h other (List.mem_cons_self ..)
    have hne : name ≠ other.1 := fun heq => String.lt_irrefl _ (heq ▸ hless)
    rw [insert, if_neg (String.lt_asymm hless), if_neg hne,
      ih fun entry hentry => h entry (List.mem_cons_of_mem _ hentry)]
    rfl

end Named

end PluginHost
