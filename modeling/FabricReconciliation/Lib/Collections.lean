import FabricReconciliation.Lib.Codec
import FabricReconciliation.Lib.OrdMap

/-!
# Codecs of collections

Reading back a list or an ordered map that was written entry by entry behind its count.

* **`reads_list`, `reads_map`** — what was written is read back;
* **`list_sound`, `map_sound`** — what is read has the announced size, and every entry has the
  properties the entry reader guarantees.
-/

namespace Lib

variable {α κ : Type}

/-- `n` items, in order. -/
def Reader.list (n : Nat) (item : Reader α) : Reader (List α) :=
  Reader.loop n (fun acc => Reader.bind item fun a => Reader.pure (acc ++ [a])) []

/-- `n` entries with pairwise distinct keys. -/
def Reader.map [LinearOrder κ] (n : Nat) (entry : Reader (κ × α)) : Reader (OrdMap κ α) :=
  Reader.loop n (fun acc => Reader.bind entry fun e => Reader.ofOption (acc.emplace e.1 e.2))
    OrdMap.empty

instance stable_list (n : Nat) (item : Reader α) [item.Stable] : (Reader.list n item).Stable := by
  unfold Reader.list
  infer_instance

instance stable_map [LinearOrder κ] (n : Nat) (entry : Reader (κ × α)) [entry.Stable] :
    (Reader.map n entry).Stable := by
  unfold Reader.map
  infer_instance

theorem foldl_snoc : ∀ (l acc : List α), l.foldl (fun acc a => acc ++ [a]) acc = acc ++ l
  | [], acc => by simp
  | a :: l, acc => by simp [foldl_snoc l]

theorem reads_list {item : Reader α} {enc : α → Bytes} {l : List α}
    (h : ∀ a ∈ l, Reads item (enc a) (some a)) :
    Reads (Reader.list l.length item) (l.flatMap enc) (some l) := by
  have hloop : Reads (Reader.list l.length item) (l.flatMap enc)
      (some (l.foldl (fun acc a => acc ++ [a]) [])) := by
    refine Reads.loop l [] fun pre a post hl => ?_
    exact Reads.bind_end (h a (by simp [hl])) (Reads.pure _)
  rwa [foldl_snoc, List.nil_append] at hloop

theorem list_sound {item : Reader α} {P : α → Prop}
    (hitem : ∀ bs a rest, item bs = some (a, rest) → P a) {n : Nat} {bs rest : Bytes} {l : List α}
    (h : Reader.list n item bs = some (l, rest)) : l.length = n ∧ ∀ a ∈ l, P a := by
  constructor
  · have := Reader.loop_count (m := List.length) (fun s bs s' rest hb => by
      obtain ⟨a, mid, -, hp⟩ := Reader.bind_eq_some.mp hb
      obtain ⟨rfl, -⟩ := Reader.pure_eq_some.mp hp
      simp) n [] bs l rest h
    simpa using this
  · refine Reader.loop_invariant (P := fun acc => ∀ a ∈ acc, P a) (fun s bs s' rest hs hb => ?_)
      n [] bs l rest (by simp) h
    obtain ⟨a, mid, ha, hp⟩ := Reader.bind_eq_some.mp hb
    obtain ⟨rfl, -⟩ := Reader.pure_eq_some.mp hp
    intro x hx
    rcases List.mem_append.mp hx with hx | hx
    · exact hs x hx
    · rw [List.mem_singleton.mp hx]
      exact hitem bs a mid ha

theorem list_exact {item : Reader α} {enc : α → Bytes} (h : item.Exact enc) {n : Nat} {bs rest : Bytes} {l : List α}
    (hread : Reader.list n item bs = some (l, rest)) : bs = l.flatMap enc ++ rest := by
  have hloop : ∀ (n : Nat) (acc : List α) (bs : Bytes),
      Reader.loop n (fun acc => Reader.bind item fun a => Reader.pure (acc ++ [a])) acc bs = some (l, rest) →
      ∃ added, l = acc ++ added ∧ bs = added.flatMap enc ++ rest := by
    intro n
    induction n with
    | zero =>
      intro acc bs hpure
      obtain ⟨rfl, rfl⟩ := Reader.pure_eq_some.mp hpure
      exact ⟨[], by simp, by simp⟩
    | succ n ih =>
      intro acc bs hbind
      obtain ⟨acc', mid, hbody, htail⟩ := Reader.bind_eq_some.mp hbind
      obtain ⟨a, mid', hitem, hrest⟩ := Reader.bind_eq_some.mp hbody
      obtain ⟨rfl, rfl⟩ := Reader.pure_eq_some.mp hrest
      obtain ⟨added, hl, hbytes⟩ := ih (acc ++ [a]) mid' htail
      refine ⟨a :: added, by simp [hl], ?_⟩
      rw [h bs a mid' hitem, hbytes, List.flatMap_cons, List.append_assoc]
  obtain ⟨added, hl, hbytes⟩ := hloop n [] bs hread
  rw [List.nil_append] at hl
  rw [hl]
  exact hbytes

variable [LinearOrder κ]

/-- Every key inserted so far is below the next one. -/
theorem insertAll_below {pre post : List (κ × α)} {e : κ × α}
    (h : (pre ++ e :: post).Pairwise (fun x y => x.1 < y.1)) :
    ∀ x ∈ (OrdMap.empty.insertAll pre).entries, x.1 < e.1 := by
  have hpre : (OrdMap.empty.insertAll pre).entries = pre := by
    have := OrdMap.insertAll_append_sorted pre OrdMap.empty
      (by simpa [OrdMap.empty] using (List.pairwise_append.mp h).1)
    simpa [OrdMap.empty] using this
  rw [hpre]
  exact fun x hx => (List.pairwise_append.mp h).2.2 x hx e (by simp)

theorem reads_map {entry : Reader (κ × α)} {enc : κ × α → Bytes} {m : OrdMap κ α}
    (h : ∀ e ∈ m.entries, Reads entry (enc e) (some e)) :
    Reads (Reader.map m.size entry) (m.entries.flatMap enc) (some m) := by
  have hloop : Reads (Reader.map m.size entry) (m.entries.flatMap enc)
      (some (OrdMap.empty.insertAll m.entries)) := by
    refine Reads.loop m.entries OrdMap.empty fun pre e post hl => ?_
    refine Reads.bind_end (h e (by simp [hl])) ?_
    have hemp := OrdMap.emplace_append (a := e.2) (insertAll_below (hl ▸ m.sorted))
    have : Reads (Reader.ofOption ((OrdMap.empty.insertAll pre).emplace e.1 e.2)) []
        (some ((OrdMap.empty.insertAll pre).insert e.1 e.2)) := by
      rw [hemp]
      exact Reads.pure _
    exact this
  rwa [OrdMap.foldl_insert_entries] at hloop

theorem emplace_eq_some {m m' : OrdMap κ α} {k : κ} {a : α} (h : m.emplace k a = some m') :
    m.find? k = none ∧ m' = m.insert k a := by
  unfold OrdMap.emplace at h
  split at h
  · simp at h
  · rename_i hn
    refine ⟨by simpa using hn, ?_⟩
    simpa using h.symm

theorem map_sound {entry : Reader (κ × α)} {P : κ × α → Prop}
    (hentry : ∀ bs e rest, entry bs = some (e, rest) → P e) {n : Nat} {bs rest : Bytes}
    {m : OrdMap κ α} (h : Reader.map n entry bs = some (m, rest)) :
    m.size = n ∧ ∀ e ∈ m.entries, P e := by
  constructor
  · have := Reader.loop_count (m := OrdMap.size) (fun s bs s' rest hb => by
      obtain ⟨e, mid, -, hp⟩ := Reader.bind_eq_some.mp hb
      obtain ⟨he, -⟩ := Reader.ofOption_eq_some.mp hp
      obtain ⟨hnone, rfl⟩ := emplace_eq_some he
      simp [OrdMap.size_insert, hnone]) n OrdMap.empty bs m rest h
    simpa [OrdMap.size, OrdMap.empty] using this
  · refine Reader.loop_invariant (P := fun acc => ∀ e ∈ acc.entries, P e) (fun s bs s' rest hs hb => ?_)
      n OrdMap.empty bs m rest (by simp [OrdMap.empty]) h
    obtain ⟨e, mid, he, hp⟩ := Reader.bind_eq_some.mp hb
    obtain ⟨hemp, -⟩ := Reader.ofOption_eq_some.mp hp
    obtain ⟨-, rfl⟩ := emplace_eq_some hemp
    intro x hx
    rcases OrdMap.mem_insertEntry hx with hx | hx
    · rw [hx]
      exact hentry bs e mid he
    · exact hs x hx

/-! ### Entries in order -/

/-- An entry above all those before it. -/
def OrdMap.extend (m : OrdMap κ α) (e : κ × α) : Option (OrdMap κ α) :=
  if m.entries.all fun x => decide (x.1 < e.1) then m.emplace e.1 e.2 else none

/-- `n` entries with strictly ascending keys. -/
def Reader.sortedMap (n : Nat) (entry : Reader (κ × α)) : Reader (OrdMap κ α) :=
  Reader.loop n (fun acc => Reader.bind entry fun e => Reader.ofOption (acc.extend e)) OrdMap.empty

theorem extend_of_lt {m : OrdMap κ α} {e : κ × α} (h : ∀ x ∈ m.entries, x.1 < e.1) : m.extend e = m.emplace e.1 e.2 := by
  unfold OrdMap.extend
  rw [if_pos]
  simpa using h

theorem extend_eq_some {m m' : OrdMap κ α} {e : κ × α} (h : m.extend e = some m') :
    m.emplace e.1 e.2 = some m' ∧ m'.entries = m.entries ++ [e] := by
  unfold OrdMap.extend at h
  split at h
  next hlt =>
    refine ⟨h, ?_⟩
    obtain ⟨-, rfl⟩ := emplace_eq_some h
    exact OrdMap.insertEntry_append (by simpa using hlt)
  next => simp at h

theorem sortedMap_refines {n : Nat} {entry entry' : Reader (κ × α)} (h : entry.Refines entry') :
    (Reader.sortedMap n entry).Refines (Reader.map n entry') := by
  refine Reader.Refines.loop (fun acc => Reader.Refines.bind h fun e => ?_) n _
  intro bs x hread
  obtain ⟨hextend, rfl⟩ := Reader.ofOption_eq_some.mp hread
  exact Reader.ofOption_eq_some.mpr ⟨(extend_eq_some hextend).1, rfl⟩

theorem sortedMap_exact {entry : Reader (κ × α)} {enc : κ × α → Bytes} (h : entry.Exact enc) {n : Nat}
    {bs rest : Bytes} {m : OrdMap κ α} (hread : Reader.sortedMap n entry bs = some (m, rest)) :
    m.size = n ∧ bs = m.entries.flatMap enc ++ rest := by
  have hloop : ∀ (n : Nat) (acc : OrdMap κ α) (bs : Bytes),
      Reader.loop n (fun acc => Reader.bind entry fun e => Reader.ofOption (acc.extend e)) acc bs = some (m, rest) →
      ∃ added, m.entries = acc.entries ++ added ∧ added.length = n ∧ bs = added.flatMap enc ++ rest := by
    intro n
    induction n with
    | zero =>
      intro acc bs hpure
      obtain ⟨rfl, rfl⟩ := Reader.pure_eq_some.mp hpure
      exact ⟨[], by simp, rfl, by simp⟩
    | succ n ih =>
      intro acc bs hbind
      obtain ⟨acc', mid, hbody, htail⟩ := Reader.bind_eq_some.mp hbind
      obtain ⟨e, mid', hentry, hrest⟩ := Reader.bind_eq_some.mp hbody
      obtain ⟨hextend, rfl⟩ := Reader.ofOption_eq_some.mp hrest
      obtain ⟨added, hentries, hlength, hbytes⟩ := ih acc' mid' htail
      refine ⟨e :: added, ?_, by rw [List.length_cons, hlength], ?_⟩
      · rw [hentries, (extend_eq_some hextend).2, List.append_assoc]
        rfl
      · rw [h bs e mid' hentry, hbytes, List.flatMap_cons, List.append_assoc]
  obtain ⟨added, hentries, hlength, hbytes⟩ := hloop n OrdMap.empty bs hread
  rw [show (OrdMap.empty : OrdMap κ α).entries = [] from rfl, List.nil_append] at hentries
  rw [hentries]
  exact ⟨by rw [OrdMap.size, hentries, hlength], hbytes⟩

theorem reads_sortedMap {entry : Reader (κ × α)} {enc : κ × α → Bytes} {m : OrdMap κ α}
    (h : ∀ e ∈ m.entries, Reads entry (enc e) (some e)) :
    Reads (Reader.sortedMap m.size entry) (m.entries.flatMap enc) (some m) := by
  have hloop : Reads (Reader.sortedMap m.size entry) (m.entries.flatMap enc)
      (some (OrdMap.empty.insertAll m.entries)) := by
    refine Reads.loop m.entries OrdMap.empty fun pre e post hl => ?_
    refine Reads.bind_end (h e (by simp [hl])) ?_
    have hlt := insertAll_below (hl ▸ m.sorted)
    have : Reads (Reader.ofOption ((OrdMap.empty.insertAll pre).extend e)) []
        (some ((OrdMap.empty.insertAll pre).insert e.1 e.2)) := by
      rw [extend_of_lt hlt, OrdMap.emplace_append hlt]
      exact Reads.pure _
    exact this
  rwa [OrdMap.foldl_insert_entries] at hloop

end Lib
