import BucketStats.Entries
import Mathlib.Tactic
/-!
# Entries put one after the other

After a list of pairs was put, the keys are those of the list in the order in which they first came,
and under each key stands the value that came last.  It does not matter whether a list is put pair by
pair or gathered under its keys before.
-/

namespace BucketStats.Entries

variable {κ ν : Type}

/-- How a value is put under a key: in the place of the one that is there, or at the end. -/
inductive Puts (k : κ) (v : ν) : Entries κ ν → Entries κ ν → Prop
  | replace {before : Entries κ ν} (hbefore : ∀ e ∈ before, e.1 ≠ k) (old : ν)
    (after : Entries κ ν) : Puts k v (before ++ (k, old) :: after) (before ++ (k, v) :: after)
  | append {entries : Entries κ ν} (hnew : ∀ e ∈ entries, e.1 ≠ k) :
    Puts k v entries (entries ++ [(k, v)])

theorem Puts.cons {k : κ} {v : ν} {entries next : Entries κ ν} {e : κ × ν} (he : e.1 ≠ k)
    (h : Puts k v entries next) : Puts k v (e :: entries) (e :: next) := by
  cases h with
  | replace hbefore old after => exact .replace (List.forall_mem_cons.2 ⟨he, hbefore⟩) old after
  | append hnew => exact .append (List.forall_mem_cons.2 ⟨he, hnew⟩)

variable [BEq κ]

theorem ofList_append_singleton (pairs : List (κ × ν)) (e : κ × ν) :
    ofList (pairs ++ [e]) = (ofList pairs).put e.1 e.2 := by
  unfold ofList
  rw [putAll_append]
  rfl

theorem forall_mem_put {p : ν → Prop} {k : κ} {v : ν} {entries : Entries κ ν} (hv : p v)
    (hentries : ∀ e ∈ entries, p e.2) : ∀ e ∈ entries.put k v, p e.2 := by
  induction entries with
  | nil => exact fun e he ↦ List.mem_singleton.1 he ▸ hv
  | cons e rest ih =>
    obtain ⟨he, hrest⟩ := List.forall_mem_cons.1 hentries
    obtain ⟨k', v'⟩ := e
    by_cases hk : (k' == k) = true
    · have hput : put k v ((k', v') :: rest) = (k', v) :: rest := if_pos hk
      rw [hput]
      exact List.forall_mem_cons.2 ⟨hv, hrest⟩
    · have hput : put k v ((k', v') :: rest) = (k', v') :: put k v rest := if_neg hk
      rw [hput]
      exact List.forall_mem_cons.2 ⟨he, ih hrest⟩

variable [LawfulBEq κ]

/-- A key that is there keeps its place. -/
theorem keys_put_of_mem {k : κ} {entries : Entries κ ν} (hmem : k ∈ entries.map (·.1)) (v : ν) :
    (entries.put k v).map (·.1) = entries.map (·.1) := by
  induction entries with
  | nil => exact absurd hmem List.not_mem_nil
  | cons e rest ih =>
    obtain ⟨k', v'⟩ := e
    by_cases hk : k' = k
    · simp [put, putBy, hk]
    · have hrest : k ∈ rest.map (·.1) := by
        rw [List.map_cons, List.mem_cons] at hmem
        exact hmem.resolve_left (Ne.symm hk)
      simpa [put, putBy, hk] using ih hrest

/-- Under each key stands the value of its last pair. -/
theorem find?_ofList (k : κ) (pairs : List (κ × ν)) :
    (ofList pairs).find? k = (pairs.reverse.find? fun e ↦ e.1 == k).map (·.2) := by
  induction pairs using List.reverseRecOn with
  | nil => rfl
  | append_singleton pairs e ih =>
    rw [ofList_append_singleton, List.reverse_append, List.reverse_singleton,
      List.singleton_append, List.find?_cons]
    by_cases hk : e.1 = k
    · subst hk
      rw [find?_put_self, beq_self_eq_true]
      rfl
    · rw [find?_put_of_ne (Ne.symm hk), ih, beq_eq_false_iff_ne.2 hk]

/-- Where no key comes twice, each has the value that was put under it. -/
theorem find?_ofList_of_nodup {k : κ} {v : ν} {pairs : List (κ × ν)}
    (hnodup : (pairs.map (·.1)).Nodup) (hmem : (k, v) ∈ pairs) :
    (ofList pairs).find? k = some v := by
  have hfound : (pairs.reverse.find? fun e ↦ e.1 == k).isSome :=
    List.find?_isSome.2 ⟨(k, v), List.mem_reverse.2 hmem, beq_self_eq_true k⟩
  obtain ⟨e, he⟩ := Option.isSome_iff_exists.1 hfound
  have hkey : e.1 = k := by simpa using List.find?_some he
  have hlast : e ∈ pairs := List.mem_reverse.1 (List.mem_of_find?_eq_some he)
  obtain rfl : e = (k, v) := List.inj_on_of_nodup_map hnodup hlast hmem hkey
  rw [find?_ofList, he, Option.map_some]

theorem mem_of_find?_eq_some {k : κ} {v : ν} {entries : Entries κ ν}
    (hfind : entries.find? k = some v) : (k, v) ∈ entries := by
  obtain ⟨e, he, rfl⟩ := Option.map_eq_some_iff.1 hfind
  have hkey : e.1 = k := by simpa using List.find?_some he
  rw [← hkey]
  exact List.mem_of_find?_eq_some he

/-! ## What is put -/

theorem put_append {k : κ} {before : Entries κ ν} (hbefore : ∀ e ∈ before, e.1 ≠ k) (v : ν)
    (after : Entries κ ν) : put k v (before ++ after) = before ++ put k v after := by
  induction before with
  | nil => rfl
  | cons e rest ih =>
    obtain ⟨he, hrest⟩ := List.forall_mem_cons.1 hbefore
    obtain ⟨k', v'⟩ := e
    simpa [put, putBy, he] using ih hrest

theorem puts_iff {k : κ} {v : ν} {entries next : Entries κ ν} :
    Puts k v entries next ↔ next = entries.put k v := by
  constructor
  · intro h
    cases h with
    | replace hbefore old after =>
      rw [put_append hbefore]
      simp [put, putBy]
    | append hnew => exact (put_eq_append hnew v).symm
  · rintro rfl
    have hnil : ∀ e ∈ ([] : Entries κ ν), e.1 ≠ k := fun e he ↦ absurd he List.not_mem_nil
    induction entries with
    | nil => exact .append hnil
    | cons e rest ih =>
      obtain ⟨k', v'⟩ := e
      by_cases hk : k' = k
      · subst hk
        have hput : put k' v ((k', v') :: rest) = (k', v) :: rest := by simp [put, putBy]
        rw [hput]
        exact .replace hnil v' rest
      · have hput : put k v ((k', v') :: rest) = (k', v') :: put k v rest := by
          simp [put, putBy, hk]
        rw [hput]
        exact ih.cons hk

/-- Whatever is there was put. -/
theorem mem_of_mem_put {k : κ} {v : ν} {entries : Entries κ ν} {e : κ × ν}
    (he : e ∈ entries.put k v) : e = (k, v) ∨ e ∈ entries := by
  generalize hnext : entries.put k v = next at he
  cases puts_iff.2 hnext.symm with
  | replace hbefore old after =>
    grind
  | append hnew =>
    grind

theorem mem_of_mem_ofList {pairs : List (κ × ν)} {e : κ × ν} (he : e ∈ ofList pairs) :
    e ∈ pairs := by
  induction pairs using List.reverseRecOn with
  | nil => exact he
  | append_singleton pairs last ih =>
    rw [ofList_append_singleton] at he
    rcases mem_of_mem_put he with rfl | he
    · exact List.mem_append_right _ List.mem_cons_self
    · exact List.mem_append_left _ (ih he)

/-! ## Putting lists -/

/-- The keys that are there keep their places, and a new one comes last. -/
theorem keys_put [DecidableEq κ] (k : κ) (v : ν) (entries : Entries κ ν) :
    (entries.put k v).map (·.1) =
      entries.map (·.1) ++ if k ∈ entries.map (·.1) then [] else [k] := by
  split_ifs with hmem
  · rw [keys_put_of_mem hmem, List.append_nil]
  · rw [put_eq_append, List.map_append, List.map_singleton]
    exact fun e he hk ↦ hmem (List.mem_map.2 ⟨e, he, hk⟩)

theorem keys_prefix_put (k : κ) (v : ν) (entries : Entries κ ν) :
    entries.map (·.1) <+: (entries.put k v).map (·.1) := by
  classical
  rw [keys_put]
  exact List.prefix_append _ _

theorem mem_keys_put (k : κ) (v : ν) (entries : Entries κ ν) :
    k ∈ (entries.put k v).map (·.1) := by
  classical
  rw [keys_put]
  split_ifs with hmem
  · exact List.mem_append_left _ hmem
  · exact List.mem_append_right _ List.mem_cons_self

theorem nodup_keys_put {entries : Entries κ ν} (hnodup : (entries.map (·.1)).Nodup) (k : κ)
    (v : ν) : ((entries.put k v).map (·.1)).Nodup := by
  classical
  rw [keys_put]
  split_ifs with hmem
  · rwa [List.append_nil]
  · rw [← List.concat_eq_append]
    exact hnodup.concat hmem

theorem nodup_keys_ofList (pairs : List (κ × ν)) : ((ofList pairs).map (·.1)).Nodup := by
  induction pairs using List.reverseRecOn with
  | nil => exact List.nodup_nil
  | append_singleton pairs e ih =>
    rw [ofList_append_singleton]
    exact nodup_keys_put ih e.1 e.2

/-- What is put under a key replaces what was put there before. -/
theorem put_put (k : κ) (v v' : ν) (entries : Entries κ ν) :
    (entries.put k v).put k v' = entries.put k v' := by
  induction entries with
  | nil => simp [put, putBy]
  | cons e rest ih =>
    obtain ⟨k₀, v₀⟩ := e
    by_cases hk : k₀ = k
    · simp [put, putBy, hk]
    · simpa [put, putBy, hk] using ih

/-- A key that is there can be put before or after another one. -/
theorem put_comm_of_mem {k k' : κ} {entries : Entries κ ν} (hmem : k ∈ entries.map (·.1))
    (hne : k' ≠ k) (v v' : ν) :
    (entries.put k' v').put k v = (entries.put k v).put k' v' := by
  induction entries with
  | nil => exact absurd hmem List.not_mem_nil
  | cons e rest ih =>
    obtain ⟨k₀, v₀⟩ := e
    by_cases hk : k₀ = k
    · subst hk
      simp [put, putBy, Ne.symm hne]
    · have hrest : k ∈ rest.map (·.1) := by
        rw [List.map_cons, List.mem_cons] at hmem
        exact hmem.resolve_left (Ne.symm hk)
      by_cases hk' : k₀ = k'
      · subst hk'
        simp [put, putBy, hne]
      · simpa [put, putBy, hk, hk'] using ih hrest

theorem put_putAll_of_mem {k : κ} {more : Entries κ ν} (hmore : ∀ e ∈ more, e.1 ≠ k)
    {entries : Entries κ ν} (hmem : k ∈ entries.map (·.1)) (v : ν) :
    (entries.putAll more).put k v = (entries.put k v).putAll more := by
  induction more generalizing entries with
  | nil => rfl
  | cons e rest ih =>
    obtain ⟨hne, hrest⟩ := List.forall_mem_cons.1 hmore
    calc
      (entries.putAll (e :: rest)).put k v = ((entries.put e.1 e.2).put k v).putAll rest :=
        ih hrest ((keys_prefix_put e.1 e.2 entries).subset hmem)
      _ = (entries.put k v).putAll (e :: rest) := by
        rw [put_comm_of_mem hmem hne]
        rfl

/-- Where no key comes twice, one more pair can be put among the others before they are all put. -/
theorem putAll_put {more : Entries κ ν} (hnodup : (more.map (·.1)).Nodup) (k : κ) (v : ν)
    (entries : Entries κ ν) : entries.putAll (more.put k v) = (entries.putAll more).put k v := by
  induction more generalizing entries with
  | nil => rfl
  | cons e rest ih =>
    obtain ⟨k', v'⟩ := e
    obtain ⟨hnew, hrest⟩ := List.nodup_cons.1 hnodup
    by_cases hk : k' = k
    · subst hk
      have hput : put k' v ((k', v') :: rest) = (k', v) :: rest := by simp [put, putBy]
      have hother : ∀ e ∈ rest, e.1 ≠ k' := fun e he hkey ↦ hnew (List.mem_map.2 ⟨e, he, hkey⟩)
      calc
        entries.putAll (put k' v ((k', v') :: rest)) = (entries.put k' v).putAll rest := by
          rw [hput]
          rfl
        _ = ((entries.put k' v').put k' v).putAll rest := by rw [put_put]
        _ = (entries.putAll ((k', v') :: rest)).put k' v :=
          (put_putAll_of_mem hother (mem_keys_put k' v' entries) v).symm
    · have hput : put k v ((k', v') :: rest) = (k', v') :: put k v rest := by simp [put, putBy, hk]
      rw [hput]
      exact ih hrest (entries.put k' v')

/-- Pairs can be gathered under their keys before they are put. -/
theorem putAll_ofList (entries pairs : Entries κ ν) :
    entries.putAll (ofList pairs) = entries.putAll pairs := by
  induction pairs using List.reverseRecOn with
  | nil => rfl
  | append_singleton pairs e ih =>
    rw [ofList_append_singleton, putAll_put (nodup_keys_ofList pairs), ih, putAll_append]
    rfl

theorem ofList_append (first second : List (κ × ν)) :
    ofList (first ++ second) = (ofList first).putAll (ofList second) := by
  rw [putAll_ofList]
  exact putAll_append [] first second

theorem keys_prefix_putAll (entries more : Entries κ ν) :
    entries.map (·.1) <+: (entries.putAll more).map (·.1) := by
  induction more generalizing entries with
  | nil => exact List.prefix_rfl
  | cons e rest ih => exact (keys_prefix_put e.1 e.2 entries).trans (ih (entries.put e.1 e.2))

/-- The later list decides about its keys, and leaves all others as they were. -/
theorem find?_putAll {more : Entries κ ν} (hnodup : (more.map (·.1)).Nodup) (k : κ)
    (entries : Entries κ ν) :
    (entries.putAll more).find? k = (more.find? k).or (entries.find? k) := by
  induction more generalizing entries with
  | nil => rfl
  | cons e rest ih =>
    obtain ⟨k', v'⟩ := e
    obtain ⟨hnew, hrest⟩ := List.nodup_cons.1 hnodup
    have hstep : (entries.putAll ((k', v') :: rest)).find? k =
        (Entries.find? k rest).or ((entries.put k' v').find? k) := ih hrest (entries.put k' v')
    by_cases hk : k' = k
    · subst hk
      have hnone : Entries.find? k' rest = none := by
        cases hfind : Entries.find? k' rest with
        | none => rfl
        | some v => exact absurd (List.mem_map.2 ⟨_, mem_of_find?_eq_some hfind, rfl⟩) hnew
      rw [hstep, hnone, find?_put_self]
      simp [find?]
    · rw [hstep, find?_put_of_ne (Ne.symm hk)]
      simp [find?, hk]

theorem ofList_of_nodup {entries : Entries κ ν} (hnodup : (entries.map (·.1)).Nodup) :
    ofList entries = entries := by
  induction entries using List.reverseRecOn with
  | nil => rfl
  | append_singleton entries e ih =>
    rw [List.map_append, List.map_singleton, List.nodup_append] at hnodup
    obtain ⟨hentries, _, hnew⟩ := hnodup
    rw [ofList_append_singleton, ih hentries, put_eq_append]
    exact fun e' he' ↦ hnew e'.1 (List.mem_map_of_mem he') e.1 List.mem_cons_self

end BucketStats.Entries
