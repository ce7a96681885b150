import PanelRelay.Envelope.Error

/-!
Steps that may fail. The first one that fails decides the error of them all; a list is decoded item
by item, so that its results stand in the places of the items.
-/

namespace PanelRelay.Envelope

section Steps

variable {α β : Type} {result : Except Error α}

theorem eq_ok_of_bind_eq_ok {next : α → Except Error β} {found : β}
    (h : result >>= next = .ok found) : ∃ value, result = .ok value ∧ next value = .ok found := by
  cases result with
  | error error => cases h
  | ok value => exact ⟨value, rfl, h⟩

theorem bind_eq_error_iff {next : α → Except Error β} {error : Error} :
    result >>= next = .error error ↔
      result = .error error ∨ ∃ value, result = .ok value ∧ next value = .error error := by
  cases result with
  | error found =>
      constructor
      · exact fun h => .inl (congrArg Except.error (Except.error.inj h))
      · rintro (h | ⟨value, h, -⟩)
        · exact congrArg Except.error (Except.error.inj h)
        · cases h
  | ok value =>
      constructor
      · exact fun h => .inr ⟨value, rfl, h⟩
      · rintro (h | ⟨found, h, hnext⟩)
        · cases h
        · exact Except.ok.inj h ▸ hnext

theorem eq_ok_of_map_eq_ok {f : α → β} {found : β} (h : result.map f = .ok found) :
    ∃ value, result = .ok value ∧ f value = found := by
  cases result with
  | error error => cases h
  | ok value => exact ⟨value, rfl, Except.ok.inj h⟩

theorem map_eq_ok_iff {f : α → β} (hf : ∀ a b, f a = f b → a = b) {a : α} :
    result.map f = .ok (f a) ↔ result = .ok a := by
  constructor
  · intro h
    obtain ⟨value, hresult, hvalue⟩ := eq_ok_of_map_eq_ok h
    rw [hresult, hf value a hvalue]
  · rintro rfl
    rfl

theorem map_eq_error_iff {f : α → β} {error : Error} :
    result.map f = .error error ↔ result = .error error := by
  cases result with
  | error found =>
      exact ⟨fun h => congrArg Except.error (Except.error.inj h),
        fun h => congrArg Except.error (Except.error.inj h)⟩
  | ok value => exact ⟨nofun, nofun⟩

end Steps

section Lists

variable {α β : Type} {decode : α → Except Error β} {items : List α}

theorem mapM_eq_ok_iff {found : List β} :
    items.mapM decode = .ok found ↔ items.map decode = found.map .ok := by
  induction items generalizing found with
  | nil =>
      cases found with
      | nil => exact ⟨fun _ => rfl, fun _ => rfl⟩
      | cons result found => exact ⟨nofun, nofun⟩
  | cons item items ih =>
      rw [List.mapM_cons]
      constructor
      · intro h
        obtain ⟨first, hfirst, h⟩ := eq_ok_of_bind_eq_ok h
        obtain ⟨rest, hrest, h⟩ := eq_ok_of_bind_eq_ok h
        obtain rfl := Except.ok.inj h
        rw [List.map_cons, List.map_cons, hfirst, ih.mp hrest]
      · intro h
        cases found with
        | nil => cases h
        | cons first rest =>
            obtain ⟨hfirst, hrest⟩ := List.cons.inj h
            rw [hfirst, ih.mpr hrest]
            rfl

/-- All results of a list that is decoded as a whole are results of its items. -/
theorem forall_of_mapM_eq_ok {P : β → Prop} {found : List β}
    (hitems : ∀ item ∈ items, ∀ result, decode item = .ok result → P result)
    (h : items.mapM decode = .ok found) : ∀ result ∈ found, P result := by
  intro result hresult
  have hmem : Except.ok result ∈ items.map decode := by
    rw [mapM_eq_ok_iff.mp h]
    exact List.mem_map_of_mem hresult
  obtain ⟨item, hitem, hdecode⟩ := List.mem_map.mp hmem
  exact hitems item hitem result hdecode

theorem mapM_eq_error_iff {error : Error} :
    items.mapM decode = .error error ↔
      ∃ before refused after, items = before ++ refused :: after ∧
        (∀ item ∈ before, ∃ result, decode item = .ok result) ∧
          decode refused = .error error := by
  induction items with
  | nil =>
      constructor
      · nofun
      · rintro ⟨before, refused, after, hitems, -⟩
        exact absurd hitems.symm (by simp)
  | cons item items ih =>
      rw [List.mapM_cons]
      constructor
      · intro h
        rcases bind_eq_error_iff.mp h with hitem | ⟨first, hfirst, h⟩
        · exact ⟨[], item, items, rfl, nofun, hitem⟩
        · rcases bind_eq_error_iff.mp h with hrest | ⟨rest, -, h⟩
          · obtain ⟨before, refused, after, rfl, hbefore, hrefused⟩ := ih.mp hrest
            exact ⟨item :: before, refused, after, rfl,
              List.forall_mem_cons.mpr ⟨⟨first, hfirst⟩, hbefore⟩, hrefused⟩
          · cases h
      · rintro ⟨before, refused, after, hitems, hbefore, hrefused⟩
        cases before with
        | nil =>
            obtain ⟨rfl, -⟩ := List.cons.inj hitems
            exact bind_eq_error_iff.mpr (.inl hrefused)
        | cons head before =>
            obtain ⟨rfl, hrest⟩ := List.cons.inj hitems
            obtain ⟨⟨first, hfirst⟩, hbefore⟩ := List.forall_mem_cons.mp hbefore
            have hrest := ih.mpr ⟨before, refused, after, hrest, hbefore, hrefused⟩
            exact bind_eq_error_iff.mpr (.inr ⟨first, hfirst, bind_eq_error_iff.mpr (.inl hrest)⟩)

theorem exists_mapM_eq_ok_iff :
    (∃ found, items.mapM decode = .ok found) ↔
      ∀ item ∈ items, ∃ result, decode item = .ok result := by
  constructor
  · rintro ⟨found, hfound⟩ item hitem
    have hmem := List.mem_map_of_mem (f := decode) hitem
    rw [mapM_eq_ok_iff.mp hfound] at hmem
    obtain ⟨result, -, hresult⟩ := List.mem_map.mp hmem
    exact ⟨result, hresult.symm⟩
  · intro hitems
    cases hfound : items.mapM decode with
    | ok found => exact ⟨found, rfl⟩
    | error error =>
        obtain ⟨before, refused, after, rfl, -, hrefused⟩ := mapM_eq_error_iff.mp hfound
        obtain ⟨result, hresult⟩ := hitems refused (by simp)
        rw [hrefused] at hresult
        cases hresult

/-- An item of a list decides the result in its place, and with the others whether there is one. -/
theorem mapM_insert_map {item other : α} {g : β → β}
    (h : decode other = (decode item).map g) (before after : List α) :
    (before ++ other :: after).mapM decode =
      ((before ++ item :: after).mapM decode).map (·.modify before.length g) := by
  induction before with
  | nil =>
      rw [List.nil_append, List.nil_append, List.mapM_cons, List.mapM_cons, h]
      cases decode item with
      | error error => rfl
      | ok found => cases after.mapM decode <;> rfl
  | cons first before ih =>
      rw [List.cons_append, List.cons_append, List.mapM_cons, List.mapM_cons, ih]
      cases decode first with
      | error error => rfl
      | ok found => cases (before ++ item :: after).mapM decode <;> rfl

theorem getElem?_of_mapM_insert {item : α} {before after : List α} {found : List β}
    (h : (before ++ item :: after).mapM decode = .ok found) :
    ∃ result, found[before.length]? = some result ∧ decode item = .ok result := by
  have hplace := congrArg (fun results => results[before.length]?) (mapM_eq_ok_iff.mp h)
  simp only [List.getElem?_map, List.getElem?_append_right (Nat.le_refl _), Nat.sub_self,
    List.getElem?_cons_zero, Option.map_some] at hplace
  obtain ⟨result, hresult, heq⟩ := Option.map_eq_some_iff.mp hplace.symm
  exact ⟨result, hresult, heq.symm⟩

end Lists

end PanelRelay.Envelope
