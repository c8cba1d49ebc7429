import Concord.Roster
import Mathlib.Data.List.Dedup
import Mathlib.Data.List.Induction

/-!
# The first binding of a name holds

A roster lists its bindings by name, so they have no other order, and a name has at most one value.
Names are bound one call after the other, and some calls are refused. `Records` says what the roster
then holds and which call it takes next, in terms of the calls alone.
-/
namespace Concord.Roster

variable {β : Type}

/-- Bindings in ascending order of their names have no other order. -/
theorem eq_of_perm {entries entries' : List (StoreName × β)}
    (h : (entries.map Prod.fst).Pairwise (· < ·)) (h' : (entries'.map Prod.fst).Pairwise (· < ·))
    (hperm : entries.Perm entries') : entries = entries' := by
  have hsorted : entries.Pairwise fun entry next => entry.1 < next.1 := List.pairwise_map.mp h
  have hsorted' : entries'.Pairwise fun entry next => entry.1 < next.1 := List.pairwise_map.mp h'
  exact hperm.eq_of_pairwise
    (fun _ _ _ _ hlt hgt => absurd hgt (StoreName.lt_asymm hlt)) hsorted hsorted'

theorem insertBinding_perm (s : StoreName) (value : β) (entries : List (StoreName × β)) :
    (insertBinding s value entries).Perm ((s, value) :: entries) := by
  induction entries with
  | nil => exact .refl _
  | cons entry rest ih =>
    unfold insertBinding
    split
    · exact .refl _
    · exact (ih.cons entry).trans (.swap _ _ _)

theorem enroll_perm {r : Roster β} {s : StoreName} (h : s ∉ r.names) (value : β) :
    ∃ r', r.enroll s value = .ok r' ∧ r'.entries.Perm ((s, value) :: r.entries) :=
  ⟨_, dif_pos (contains_eq_false_iff.mpr h), insertBinding_perm s value r.entries⟩

/-- Bindings of fresh and different names are all put on the roster. -/
theorem enrolls_perm (bindings : List (StoreName × β)) (r : Roster β)
    (h : (r.names ++ bindings.map Prod.fst).Nodup) :
    ∃ r', bindings.foldlM (fun r (s, value) => r.enroll s value) r = .ok r' ∧
      r'.entries.Perm (r.entries ++ bindings) := by
  induction bindings generalizing r with
  | nil => exact ⟨r, rfl, by rw [List.append_nil]⟩
  | cons binding rest ih =>
    obtain ⟨s, value⟩ := binding
    have hmiddle : (s :: (r.names ++ rest.map Prod.fst)).Nodup :=
      List.perm_middle.nodup_iff.mp h
    have hfresh : s ∉ r.names := fun hmem =>
      (List.nodup_cons.mp hmiddle).1 (List.mem_append_left _ hmem)
    obtain ⟨next, henroll, hnext⟩ := enroll_perm hfresh value
    have hnames : next.names.Perm (s :: r.names) := hnext.map Prod.fst
    obtain ⟨r', hrest, hperm⟩ := ih next ((hnames.append_right _).nodup_iff.mpr hmiddle)
    refine ⟨r', ?_, (hperm.trans (hnext.append_right rest)).trans List.perm_middle.symm⟩
    rw [List.foldlM_cons]
    change (r.enroll s value >>= _) = _
    rw [henroll]
    exact hrest

theorem ofBindings_perm {bindings : List (StoreName × β)} (h : (bindings.map Prod.fst).Nodup) :
    ∃ r, ofBindings bindings = .ok r ∧ r.entries.Perm bindings :=
  enrolls_perm bindings empty h

variable {r : Roster β} {s : StoreName} {value : β} {calls : List (StoreName × β)}

theorem mem_of_find? (h : r.find? s = some value) : (s, value) ∈ r.entries := by
  obtain ⟨⟨name, found⟩, hentry, rfl⟩ := Option.map_eq_some_iff.mp h
  have hname := List.find?_some hentry
  rw [decide_eq_true_eq] at hname
  cases hname
  exact List.mem_of_find?_eq_some hentry

theorem exists_find? (h : r.contains s = true) : ∃ value, r.find? s = some value := by
  obtain ⟨entry, hmem, he⟩ := List.any_eq_true.mp h
  have hfind : (r.entries.find? fun entry => entry.1 = s).isSome :=
    List.find?_isSome.mpr ⟨entry, hmem, he⟩
  obtain ⟨found, hf⟩ := Option.isSome_iff_exists.mp hfind
  exact ⟨found.2, by rw [find?, hf, Option.map_some]⟩

/-- To look a name up is to find its binding on the list. -/
theorem find?_eq_some_iff : r.find? s = some value ↔ (s, value) ∈ r.entries := by
  refine ⟨mem_of_find?, fun hmem => ?_⟩
  have hname : s ∈ r.names := List.mem_map_of_mem hmem
  obtain ⟨found, hfind⟩ := exists_find? (contains_eq_true_iff.mpr hname)
  have heq := List.inj_on_of_nodup_map r.nodup_names hmem (mem_of_find? hfind) rfl
  cases heq
  exact hfind

theorem find?_eq_none_iff : r.find? s = none ↔ s ∉ r.names := by
  rw [find?, Option.map_eq_none_iff, List.find?_eq_none, ← contains_eq_false_iff, contains,
    List.any_eq_false]

/-- One call: it binds the name, or it is refused and leaves the roster as it is. -/
def attempt (r : Roster β) (s : StoreName) (value : β) : Except Refusal Unit × Roster β :=
  match r.enroll s value with
  | .ok r' => (.ok (), r')
  | .error error => (.error error, r)

/-- The roster after the calls, refused ones included. -/
def ofAttempts (calls : List (StoreName × β)) : Roster β :=
  calls.foldl (fun r call => (r.attempt call.1 call.2).2) empty

/-- The first of the calls for the name binds it to the value. -/
def FirstBinds (calls : List (StoreName × β)) (s : StoreName) (value : β) : Prop :=
  ∃ before after, calls = before ++ (s, value) :: after ∧ s ∉ before.map Prod.fst

/-- What the calls say about the roster that they leave. -/
structure Records (calls : List (StoreName × β)) (r : Roster β) : Prop where
  /-- The next call binds its name exactly if there was no call for that name before. -/
  accepted : ∀ s value, (r.attempt s value).1 = .ok () ↔ s ∉ calls.map Prod.fst
  /-- Otherwise the name is taken, and everything stays as it is. -/
  refused : ∀ s value, s ∈ calls.map Prod.fst → r.attempt s value = (.error (.nameTaken s), r)
  found : ∀ s value, r.find? s = some value ↔ FirstBinds calls s value
  absent : ∀ s, r.find? s = none ↔ s ∉ calls.map Prod.fst
  contains : ∀ s, r.contains s = true ↔ s ∈ calls.map Prod.fst
  /-- No name is listed twice, and each is listed with what its first call bound it to. -/
  ascending : (r.entries.map Prod.fst).Pairwise (· < ·)
  listed : ∀ s value, (s, value) ∈ r.entries ↔ FirstBinds calls s value
  size : r.size = (calls.map Prod.fst).dedup.length
  /-- Calls that have to succeed all together do so when no name comes up twice. -/
  together : (calls.map Prod.fst).Nodup → ofBindings calls = .ok r
  /-- Otherwise the first name that comes up again is refused. -/
  repeated : ∀ before s value after, calls = before ++ (s, value) :: after →
    (before.map Prod.fst).Nodup → s ∈ before.map Prod.fst →
    ofBindings calls = .error (.nameTaken s)

theorem attempt_of_mem (h : s ∈ r.names) (value : β) :
    r.attempt s value = (.error (.nameTaken s), r) := by
  have herror : r.enroll s value = .error (.nameTaken s) := enroll_eq_error_iff.mpr ⟨h, rfl⟩
  rw [attempt, herror]

theorem attempt_of_notMem (h : s ∉ r.names) (value : β) :
    ∃ r', r.enroll s value = .ok r' ∧ r.attempt s value = (.ok (), r') ∧
      r'.entries.Perm ((s, value) :: r.entries) := by
  obtain ⟨r', henroll, hperm⟩ := enroll_perm h value
  exact ⟨r', henroll, by rw [attempt, henroll], hperm⟩

theorem mem_names_attempt (r : Roster β) (t : StoreName) (value : β) :
    s ∈ (r.attempt t value).2.names ↔ s ∈ r.names ∨ s = t := by
  by_cases h : t ∈ r.names
  · rw [attempt_of_mem h]
    exact ⟨.inl, fun hs => hs.elim id fun he => he ▸ h⟩
  · obtain ⟨r', -, hattempt, hperm⟩ := attempt_of_notMem h value
    rw [hattempt, names, (hperm.map Prod.fst).mem_iff, List.map_cons, List.mem_cons, or_comm]
    rfl

theorem ofAttempts_concat (calls : List (StoreName × β)) (call : StoreName × β) :
    ofAttempts (calls ++ [call]) = ((ofAttempts calls).attempt call.1 call.2).2 :=
  List.foldl_concat ..

/-- A further call is the first for its name only if there was none before. -/
theorem firstBinds_concat {call : StoreName × β} : FirstBinds (calls ++ [call]) s value ↔
    FirstBinds calls s value ∨ s ∉ calls.map Prod.fst ∧ call = (s, value) := by
  constructor
  · rintro ⟨before, after, hsplit, hfirst⟩
    rcases List.eq_nil_or_concat after with rfl | ⟨rest, last, rfl⟩
    · obtain ⟨rfl, hcall⟩ := List.append_inj' hsplit rfl
      exact .inr ⟨hfirst, List.singleton_inj.mp hcall⟩
    · rw [List.concat_eq_append, ← List.cons_append, ← List.append_assoc] at hsplit
      exact .inl ⟨before, rest, (List.append_inj' hsplit rfl).1, hfirst⟩
  · rintro (⟨before, after, rfl, hfirst⟩ | ⟨hfirst, rfl⟩)
    · exact ⟨before, after ++ [call], by simp, hfirst⟩
    · exact ⟨calls, [], rfl, hfirst⟩

theorem mem_names_ofAttempts (calls : List (StoreName × β)) :
    s ∈ (ofAttempts calls).names ↔ s ∈ calls.map Prod.fst := by
  induction calls using List.reverseRecOn with
  | nil => exact Iff.rfl
  | append_singleton calls call ih =>
    rw [ofAttempts_concat, mem_names_attempt, ih, List.map_append, List.mem_append,
      List.map_singleton, List.mem_singleton]

theorem mem_entries_ofAttempts (calls : List (StoreName × β)) :
    (s, value) ∈ (ofAttempts calls).entries ↔ FirstBinds calls s value := by
  induction calls using List.reverseRecOn with
  | nil => simp [ofAttempts, empty, FirstBinds]
  | append_singleton calls call ih =>
    obtain ⟨t, v⟩ := call
    rw [ofAttempts_concat, firstBinds_concat, ← ih, ← mem_names_ofAttempts]
    by_cases ht : t ∈ (ofAttempts calls).names
    · rw [attempt_of_mem ht]
      refine ⟨.inl, fun h => h.resolve_right ?_⟩
      rintro ⟨hs, heq⟩
      cases heq
      exact hs ht
    · obtain ⟨r', -, hattempt, hperm⟩ := attempt_of_notMem ht v
      rw [hattempt, hperm.mem_iff, List.mem_cons, or_comm]
      refine or_congr_right ⟨fun h => ?_, fun h => h.2.symm⟩
      cases h
      exact ⟨ht, rfl⟩

/-- Without repetitions no call is refused. -/
theorem ofBindings_eq_ofAttempts (h : (calls.map Prod.fst).Nodup) :
    ofBindings calls = .ok (ofAttempts calls) := by
  induction calls using List.reverseRecOn with
  | nil => rfl
  | append_singleton calls call ih =>
    rw [List.map_append, List.map_singleton, List.nodup_append] at h
    obtain ⟨hcalls, -, hlast⟩ := h
    have hfresh : call.1 ∉ (ofAttempts calls).names := by
      rw [mem_names_ofAttempts]
      exact fun hmem => hlast _ hmem _ (List.mem_singleton.mpr rfl) rfl
    obtain ⟨r', henroll, hattempt, -⟩ := attempt_of_notMem hfresh call.2
    have hbefore : ofBindings calls = .ok (ofAttempts calls) := ih hcalls
    rw [ofAttempts_concat, hattempt, ofBindings, List.foldlM_append]
    change (ofBindings calls >>= _) = _
    rw [hbefore]
    change ((ofAttempts calls).enroll call.1 call.2 >>= pure) = _
    rw [henroll]
    rfl

/-- The first repetition ends it. -/
theorem ofBindings_of_repeated {before after : List (StoreName × β)}
    (hbefore : (before.map Prod.fst).Nodup) (h : s ∈ before.map Prod.fst) :
    ofBindings (before ++ (s, value) :: after) = .error (.nameTaken s) := by
  have htaken : (ofAttempts before).enroll s value = .error (.nameTaken s) :=
    enroll_eq_error_iff.mpr ⟨(mem_names_ofAttempts before).mpr h, rfl⟩
  rw [ofBindings, List.foldlM_append]
  change (ofBindings before >>= _) = _
  rw [ofBindings_eq_ofAttempts hbefore]
  change ((ofAttempts before).enroll s value >>= _) = _
  rw [htaken]
  rfl

/-- After any calls, successful or not, the roster is an ordered map in which the first binding of a
name holds. -/
theorem first_binding_holds (calls : List (StoreName × β)) : Records calls (ofAttempts calls) := by
  have hnames : ∀ s, s ∈ (ofAttempts calls).names ↔ s ∈ calls.map Prod.fst :=
    fun _ => mem_names_ofAttempts calls
  have hrefused : ∀ s value, s ∈ calls.map Prod.fst →
      (ofAttempts calls).attempt s value = (.error (.nameTaken s), ofAttempts calls) :=
    fun s value h => attempt_of_mem ((hnames s).mpr h) value
  constructor
  · intro s value
    constructor
    · intro hok hmem
      rw [hrefused s value hmem] at hok
      cases hok
    · intro hfresh
      obtain ⟨r', -, hattempt, -⟩ := attempt_of_notMem (mt (hnames s).mp hfresh) value
      rw [hattempt]
  · exact hrefused
  · exact fun s value => find?_eq_some_iff.trans (mem_entries_ofAttempts calls)
  · exact fun s => find?_eq_none_iff.trans (not_congr (hnames s))
  · exact fun s => contains_eq_true_iff.trans (hnames s)
  · exact (ofAttempts calls).ascending
  · exact fun s value => mem_entries_ofAttempts calls
  · have hdistinct : (ofAttempts calls).names.Perm (calls.map Prod.fst).dedup := by
      rw [List.perm_ext_iff_of_nodup (nodup_names _) (List.nodup_dedup _)]
      exact fun s => (hnames s).trans List.mem_dedup.symm
    exact (List.length_map _).symm.trans hdistinct.length_eq
  · exact ofBindings_eq_ofAttempts
  · rintro before s value after rfl hbefore h
    exact ofBindings_of_repeated hbefore h

/-- The second value for a name is refused, and the names are listed in order. -/
example : (ofAttempts [(⟨"b"⟩, 1), (⟨"a"⟩, 2), (⟨"b"⟩, 3)]).entries = [(⟨"a"⟩, 2), (⟨"b"⟩, 1)] := by
  decide

end Concord.Roster
