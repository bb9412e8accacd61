import CallContract.Json.Basic

/-!
# Parts of structures

A document of a structure holds its parts under names in an object, or in their order in an array.

* `Json.slots? names j` are the parts of such a document, those that are left out as nothing; an
  array may not hold more.
* `Json.lt_of_mem_slots?` says that parts are smaller than the document.
-/

namespace CallContract.Json

/-- Values for some places: nothing where there is none any more. None may be left over. -/
def fill? : List String → List Json → Option (List (Option Json))
  | [], [] => some []
  | [], _ :: _ => none
  | _ :: names, [] => (fill? names []).map (none :: ·)
  | _ :: names, item :: rest => (fill? names rest).map (some item :: ·)

/-- The parts of a structure in the order of their names. -/
def slots? (names : List String) : Json → Option (List (Option Json))
  | .obj fields => some (names.map fun name => Keyed.get? name fields)
  | .arr items => fill? names items
  | _ => none

theorem mem_of_mem_fill? {names : List String} {items : List Json} {parts : List (Option Json)}
    {part : Json} (h : fill? names items = some parts) (hp : some part ∈ parts) : part ∈ items := by
  induction names generalizing items parts with
  | nil =>
    cases items with
    | nil =>
      simp only [fill?, Option.some.injEq] at h
      simp [← h] at hp
    | cons item rest => simp [fill?] at h
  | cons name names ih =>
    cases items with
    | nil =>
      simp only [fill?, Option.map_eq_some_iff] at h
      obtain ⟨others, ho, rfl⟩ := h
      simp at hp
      exact ih ho hp
    | cons item rest =>
      simp only [fill?, Option.map_eq_some_iff] at h
      obtain ⟨others, ho, rfl⟩ := h
      simp at hp
      rcases hp with rfl | hp
      · simp
      · exact List.mem_cons_of_mem _ (ih ho hp)

/-- A part is smaller than the document. -/
theorem lt_of_mem_slots? {names : List String} {j part : Json} {parts : List (Option Json)}
    (h : slots? names j = some parts) (hp : some part ∈ parts) : sizeOf part < sizeOf j := by
  cases j with
  | obj fields =>
    simp only [slots?, Option.some.injEq] at h
    subst h
    simp only [List.mem_map] at hp
    obtain ⟨name, _, hn⟩ := hp
    have := lt_of_keyed_get? hn
    simp
    omega
  | arr items =>
    have := List.sizeOf_lt_of_mem (mem_of_mem_fill? h hp)
    simp
    omega
  | _ => simp [slots?] at h

end CallContract.Json
