import Fleet.Proofs.Fallible
import Fleet.Proofs.Text
import Fleet.Roster
import Mathlib.Data.List.Basic
import Mathlib.Data.List.Nodup

/-!
# The hosts of a roster

A roster is filled node by node.  `Lists` says which hosts it then has: one for each id of the nodes, in the order in
which the ids come first, and each as the last node of its id has it.  Offline nodes count as if they were not there
(`resolve_filter`), a node of an unknown type is the fault of the roster (`fault?_resolve`), and the active hosts are
the first ones.  `resolve_hosts` puts this together for lists of nodes in which ids come again, offline or not.
-/

namespace Fleet.Roster

/-! ### offline nodes -/

theorem addEntries_filter (domains : Domains) (offline : List String) (r : Roster) (entries : List NodeEntry) :
    addEntries domains offline r entries = addEntries domains [] r (entries.filter (·.id ∉ offline)) := by
  induction entries generalizing r with
  | nil => rfl
  | cons entry rest ih =>
    by_cases hid : entry.id ∈ offline
    · rw [addEntries, if_pos hid, List.filter_cons_of_neg (by simpa using hid)]
      exact ih r
    · rw [addEntries, if_neg hid, List.filter_cons_of_pos (by simpa using hid), addEntries, if_neg List.not_mem_nil]
      cases hostOf domains entry with
      | ok h => exact ih (r.add h)
      | error fault => rfl

theorem resolve_filter (domains : Domains) (offline : List String) (entries : List NodeEntry) :
    resolve entries offline domains = resolve (entries.filter (·.id ∉ offline)) [] domains :=
  addEntries_filter domains offline empty entries

/-! ### nodes of unknown types -/

/-- The first of the nodes whose type has no domain. -/
def stray? (suffix? : String → Option String) (entries : List NodeEntry) : Option NodeEntry :=
  entries.find? fun entry => (suffix? entry.nodeType).isNone

theorem fault?_addEntries (domains : Domains) (r : Roster) (entries : List NodeEntry) :
    fault? (addEntries domains [] r entries) =
      (stray? domains.get? entries).map fun entry => .unknownNodeType entry.id entry.nodeType := by
  induction entries generalizing r with
  | nil => rfl
  | cons entry rest ih =>
    rw [addEntries, if_neg List.not_mem_nil, hostOf, stray?, List.find?_cons]
    cases domains.get? entry.nodeType with
    | none => rfl
    | some suffix => exact ih (r.add ⟨entry.id, entry.descriptor ++ suffix⟩)

theorem fault?_resolve (domains : Domains) (offline : List String) (entries : List NodeEntry) :
    fault? (resolve entries offline domains) =
      (stray? domains.get? (entries.filter (·.id ∉ offline))).map fun entry =>
        .unknownNodeType entry.id entry.nodeType := by
  rw [resolve_filter]
  exact fault?_addEntries domains empty _

/-! ### what a roster lists -/

/-- The host of an id: that of the last node of this id, with the domain of its type. -/
def hostNamed? (suffix? : String → Option String) (entries : List NodeEntry) (id : String) : Option Host :=
  (entries.filter (·.id == id)).getLast?.bind fun entry =>
    (suffix? entry.nodeType).map fun suffix => ⟨id, entry.descriptor ++ suffix⟩

/-- A roster has one host for each id of the nodes, in the order in which the ids come first. -/
structure Lists (suffix? : String → Option String) (entries : List NodeEntry) (r : Roster) : Prop where
  ids : r.hosts.map (·.id) = (entries.map (·.id)).eraseDups
  hosts : ∀ h ∈ r.hosts, hostNamed? suffix? entries h.id = some h

theorem hostNamed?_concat (suffix? : String → Option String) (entries : List NodeEntry) (entry : NodeEntry)
    (id : String) :
    hostNamed? suffix? (entries ++ [entry]) id =
      if entry.id = id then (suffix? entry.nodeType).map fun suffix => ⟨id, entry.descriptor ++ suffix⟩
      else hostNamed? suffix? entries id := by
  rw [hostNamed?, List.filter_append]
  by_cases hid : entry.id = id
  · rw [if_pos hid, List.filter_cons_of_pos (by simpa using hid), List.filter_nil, List.getLast?_concat]
    rfl
  · rw [if_neg hid, List.filter_cons_of_neg (by simpa using hid), List.filter_nil, List.append_nil]
    rfl

theorem mem_enrol {hosts : List Host} {h x : Host} (hx : x ∈ Host.enrol hosts h) :
    x = h ∨ x ∈ hosts ∧ x.id ≠ h.id := by
  unfold Host.enrol at hx
  split at hx
  · obtain ⟨y, hy, rfl⟩ := List.mem_map.mp hx
    by_cases hid : y.id = h.id
    · exact .inl (if_pos hid)
    · rw [if_neg hid]
      exact .inr ⟨hy, hid⟩
  · rename_i hnew
    rcases List.mem_append.mp hx with hx | hx
    · exact .inr ⟨hx, fun hid => hnew (List.mem_map.mpr ⟨x, hx, hid⟩)⟩
    · exact .inl (List.mem_singleton.mp hx)

theorem hostOf_eq_ok {domains : Domains} {entry : NodeEntry} {h : Host} (hok : hostOf domains entry = .ok h) :
    ∃ suffix, domains.get? entry.nodeType = some suffix ∧ h = ⟨entry.id, entry.descriptor ++ suffix⟩ := by
  unfold hostOf at hok
  split at hok
  · rename_i suffix hsuffix
    cases hok
    exact ⟨suffix, hsuffix, rfl⟩
  · cases hok

theorem Lists.add {domains : Domains} {entries : List NodeEntry} {r : Roster} (hr : Lists domains.get? entries r)
    {entry : NodeEntry} {h : Host} (hok : hostOf domains entry = .ok h) :
    Lists domains.get? (entries ++ [entry]) (r.add h) := by
  obtain ⟨suffix, hsuffix, rfl⟩ := hostOf_eq_ok hok
  constructor
  · rw [Roster.add, Host.map_id_enrol, hr.ids, List.map_append, List.map_singleton, Text.eraseDups_concat]
    simp only [List.mem_eraseDups]
  · intro x hx
    rw [hostNamed?_concat]
    rcases mem_enrol hx with rfl | ⟨hx, hid⟩
    · rw [if_pos rfl, hsuffix]
      rfl
    · rw [if_neg (Ne.symm hid)]
      exact hr.hosts x hx

theorem lists_addEntries {domains : Domains} {done rest : List NodeEntry} {r s : Roster}
    (hr : Lists domains.get? done r) (h : addEntries domains [] r rest = .ok s) :
    Lists domains.get? (done ++ rest) s := by
  induction rest generalizing done r with
  | nil =>
    cases h
    rwa [List.append_nil]
  | cons entry rest ih =>
    rw [addEntries, if_neg List.not_mem_nil] at h
    split at h
    · rename_i host hhost
      rw [List.append_cons]
      exact ih (hr.add hhost) h
    · cases h

theorem lists_resolve {domains : Domains} {offline : List String} {entries : List NodeEntry} {r : Roster}
    (h : resolve entries offline domains = .ok r) : Lists domains.get? (entries.filter (·.id ∉ offline)) r := by
  rw [resolve_filter] at h
  have hempty : Lists domains.get? [] empty := ⟨rfl, by simp [empty]⟩
  exact lists_addEntries hempty h

theorem mem_resolve {domains : Domains} {offline : List String} {entries : List NodeEntry} {r : Roster}
    (h : resolve entries offline domains = .ok r) {id : String} (hid : id ∈ r.hosts.map (·.id)) :
    ∃ entry ∈ entries, entry.id = id := by
  rw [(lists_resolve h).ids, List.mem_eraseDups] at hid
  obtain ⟨entry, hentry, hid⟩ := List.mem_map.mp hid
  exact ⟨entry, List.mem_of_mem_filter hentry, hid⟩

/-! ### active hosts -/

theorem active_sublist (r : Roster) (limit : Option Nat) : (r.active limit).Sublist r.hosts := by
  cases limit with
  | none => exact .refl _
  | some n => exact List.take_sublist n r.hosts

theorem nodup_active (r : Roster) (limit : Option Nat) : ((r.active limit).map (·.id)).Nodup :=
  r.distinct.sublist ((r.active_sublist limit).map _)

theorem get?_eq_some {r : Roster} {id : String} {h : Host} : r.get? id = some h ↔ h ∈ r.hosts ∧ h.id = id := by
  constructor
  · intro hget
    exact ⟨List.mem_of_find?_eq_some hget, by simpa using List.find?_some hget⟩
  · rintro ⟨hmem, rfl⟩
    obtain ⟨other, hother⟩ : ∃ other, r.get? h.id = some other := by
      rw [← Option.isSome_iff_exists, get?, List.find?_isSome]
      exact ⟨h, hmem, by simp⟩
    have hid : other.id = h.id := by simpa using List.find?_some hother
    rw [hother, List.inj_on_of_nodup_map r.distinct (List.mem_of_find?_eq_some hother) hmem hid]

/-! ### what nodes resolve to -/

section Resolving

variable {suffix? : String → Option String} {offline : List String} {entries : List NodeEntry}

theorem stray?_eq_some {entry : NodeEntry} :
    stray? suffix? (entries.filter (·.id ∉ offline)) = some entry ↔
      ∃ before after, entries = before ++ entry :: after ∧ entry.id ∉ offline ∧ suffix? entry.nodeType = none ∧
        ∀ x ∈ before, x.id ∉ offline → suffix? x.nodeType ≠ none := by
  rw [stray?, List.find?_filter, List.find?_eq_some_iff_append]
  constructor
  · rintro ⟨hentry, before, after, hentries, hbefore⟩
    obtain ⟨hid, hnone⟩ : entry.id ∉ offline ∧ suffix? entry.nodeType = none := by simpa using hentry
    refine ⟨before, after, hentries, hid, hnone, fun x hx hxid hxnone => ?_⟩
    have hknown := hbefore x hx
    simp [hxid, hxnone] at hknown
  · rintro ⟨before, after, hentries, hid, hnone, hbefore⟩
    refine ⟨by simp [hid, hnone], before, after, hentries, fun x hx => ?_⟩
    by_cases hxid : x.id ∈ offline
    · simp [hxid]
    · simp [hxid, hbefore x hx hxid]

theorem hostNamed?_filter {id : String} (hid : id ∉ offline) :
    hostNamed? suffix? (entries.filter (·.id ∉ offline)) id = hostNamed? suffix? entries id := by
  have hfilter : (entries.filter (·.id ∉ offline)).filter (·.id == id) = entries.filter (·.id == id) := by
    rw [List.filter_filter]
    refine List.filter_congr fun x _ => ?_
    by_cases hx : x.id = id
    · simp [hx, hid]
    · simp [hx]
  rw [hostNamed?, hfilter]
  rfl

theorem hostNamed?_eq_some {id : String} {h : Host} (hnamed : hostNamed? suffix? entries id = some h) :
    ∃ before entry after suffix, entries = before ++ entry :: after ∧ entry.id = id ∧ (∀ x ∈ after, x.id ≠ id) ∧
      suffix? entry.nodeType = some suffix ∧ h = ⟨id, entry.descriptor ++ suffix⟩ := by
  obtain ⟨entry, hlast, hhost⟩ := Option.bind_eq_some_iff.mp hnamed
  obtain ⟨suffix, hsuffix, rfl⟩ := Option.map_eq_some_iff.mp hhost
  -- the last node is the first one from the end
  rw [List.getLast?_filter, List.find?_eq_some_iff_append] at hlast
  obtain ⟨hid, after, before, hreverse, hafter⟩ := hlast
  have hentries : entries = before.reverse ++ entry :: after.reverse := by
    rw [List.reverse_eq_iff.mp hreverse]
    simp
  refine ⟨before.reverse, entry, after.reverse, suffix, hentries, by simpa using hid, fun x hx => ?_, hsuffix, rfl⟩
  simpa using hafter x (List.mem_reverse.mp hx)

theorem addEntries_congr {domains domains' : Domains}
    (h : ∀ entry ∈ entries, entry.id ∉ offline → domains'.get? entry.nodeType = domains.get? entry.nodeType)
    (r : Roster) : addEntries domains' offline r entries = addEntries domains offline r entries := by
  induction entries generalizing r with
  | nil => rfl
  | cons entry rest ih =>
    obtain ⟨hentry, hrest⟩ := List.forall_mem_cons.mp h
    rw [addEntries, addEntries]
    by_cases hid : entry.id ∈ offline
    · rw [if_pos hid, if_pos hid]
      exact ih hrest r
    · have hhost : hostOf domains' entry = hostOf domains entry := by rw [hostOf, hentry hid, hostOf]
      rw [if_neg hid, if_neg hid, hhost]
      cases hostOf domains entry with
      | ok host => exact ih hrest (r.add host)
      | error fault => rfl

end Resolving

/-- **What nodes resolve to.**  Resolving fails exactly if a node that is not offline is of a type without a domain,
and the fault names the first such node.  Otherwise there is one host for each id that is not offline, in the order in
which the ids come first, with the descriptor of the last node of the id and the domain of its type; a host is found by
its id, and nothing is found by any other.  Of the domains only those of the types in use make a difference. -/
theorem resolve_hosts (entries : List NodeEntry) (offline : List String) (domains : Domains) :
    ((∃ fault, resolve entries offline domains = .error fault) ↔
      ∃ entry ∈ entries, entry.id ∉ offline ∧ domains.get? entry.nodeType = none) ∧
    (∀ fault, resolve entries offline domains = .error fault ↔
      ∃ before entry after, entries = before ++ entry :: after ∧ entry.id ∉ offline ∧
        domains.get? entry.nodeType = none ∧
        (∀ x ∈ before, x.id ∉ offline → domains.get? x.nodeType ≠ none) ∧
        fault = .unknownNodeType entry.id entry.nodeType) ∧
    (∀ r, resolve entries offline domains = .ok r →
      (r.hosts.map (·.id)).Nodup ∧
      r.hosts.map (·.id) = ((entries.map (·.id)).filter (· ∉ offline)).eraseDups ∧
      (∀ h ∈ r.hosts, ∃ before entry after suffix, entries = before ++ entry :: after ∧ entry.id = h.id ∧
        (∀ x ∈ after, x.id ≠ h.id) ∧ domains.get? entry.nodeType = some suffix ∧
        h.hostname = entry.descriptor ++ suffix) ∧
      ∀ id, (∀ h, r.get? id = some h ↔ h ∈ r.hosts ∧ h.id = id) ∧
        ((∃ h, r.get? id = some h) ↔ id ∉ offline ∧ id ∈ entries.map (·.id))) ∧
    ∀ domains' : Domains,
      (∀ entry ∈ entries, entry.id ∉ offline → domains'.get? entry.nodeType = domains.get? entry.nodeType) →
        resolve entries offline domains' = resolve entries offline domains := by
  refine ⟨?fails, fun fault => ?first, fun r hr => ?hosts, fun domains' hsame => addEntries_congr hsame empty⟩
  case fails =>
    have hfault : (∃ fault, resolve entries offline domains = .error fault) ↔
        (stray? domains.get? (entries.filter (·.id ∉ offline))).isSome := by
      simp only [← fault?_eq_some, fault?_resolve, ← Option.isSome_iff_exists, Option.isSome_map]
    rw [hfault, stray?, List.find?_isSome]
    simp [and_assoc]
  case first =>
    rw [← fault?_eq_some, fault?_resolve, Option.map_eq_some_iff]
    constructor
    · rintro ⟨entry, hentry, rfl⟩
      obtain ⟨before, after, hentries, hid, hnone, hbefore⟩ := stray?_eq_some.mp hentry
      exact ⟨before, entry, after, hentries, hid, hnone, hbefore, rfl⟩
    · rintro ⟨before, entry, after, hentries, hid, hnone, hbefore, rfl⟩
      exact ⟨entry, stray?_eq_some.mpr ⟨before, after, hentries, hid, hnone, hbefore⟩, rfl⟩
  case hosts =>
    have hlists := lists_resolve hr
    have hids : r.hosts.map (·.id) = ((entries.map (·.id)).filter (· ∉ offline)).eraseDups := by
      rw [hlists.ids, List.filter_map]
      rfl
    have hmem : ∀ id, id ∈ r.hosts.map (·.id) ↔ id ∉ offline ∧ id ∈ entries.map (·.id) := fun id => by
      rw [hids, List.mem_eraseDups, List.mem_filter, and_comm]
      simp
    refine ⟨r.distinct, hids, fun h hh => ?_, fun id => ⟨fun h => get?_eq_some, ?_⟩⟩
    · have hoffline : h.id ∉ offline := ((hmem h.id).mp (List.mem_map_of_mem hh)).1
      have hnamed := hlists.hosts h hh
      rw [hostNamed?_filter hoffline] at hnamed
      obtain ⟨before, entry, after, suffix, hentries, hid, hafter, hsuffix, hhost⟩ := hostNamed?_eq_some hnamed
      exact ⟨before, entry, after, suffix, hentries, hid, hafter, hsuffix, congrArg Host.hostname hhost⟩
    · rw [← hmem]
      simp only [get?_eq_some, List.mem_map]

/-- A node that comes twice, with an offline node of an unknown type in between. -/
def sampleEntries : List NodeEntry :=
  [⟨"n1", "a", "m510"⟩, ⟨"n2", "b", "x9"⟩, ⟨"n3", "c", "r320"⟩, ⟨"n1", "d", "r320"⟩, ⟨"n2", "e", "m510"⟩]

theorem resolve_hosts_sample :
    resolve sampleEntries [] Domains.builtin = .error (.unknownNodeType "n2" "x9") ∧
    ∃ r, resolve sampleEntries ["n2"] Domains.builtin = .ok r ∧
      r.hosts.map (·.id) = ["n1", "n3"] ∧ r.get? "n1" = some ⟨"n1", "d.apt.emulab.net"⟩ ∧
      (¬ ∃ h, r.get? "n2" = some h) ∧
      resolve sampleEntries ["n2"] (Domains.builtin.insert "x9" ".lab") = .ok r := by
  have hfault := (resolve_hosts sampleEntries [] Domains.builtin).2.1 (.unknownNodeType "n2" "x9")
  obtain ⟨-, -, hhosts, hsame⟩ := resolve_hosts sampleEntries ["n2"] Domains.builtin
  have hfirst : resolve sampleEntries [] Domains.builtin = .error (.unknownNodeType "n2" "x9") :=
    hfault.mpr ⟨[⟨"n1", "a", "m510"⟩], ⟨"n2", "b", "x9"⟩, _, rfl, by decide, by decide, by decide, rfl⟩
  obtain ⟨r, hr, hget⟩ : ∃ r, resolve sampleEntries ["n2"] Domains.builtin = .ok r ∧
      r.get? "n1" = some ⟨"n1", "d.apt.emulab.net"⟩ := ⟨_, rfl, by decide⟩
  obtain ⟨-, hids, -, hfound⟩ := hhosts r hr
  refine ⟨hfirst, r, hr, hids.trans (by decide), hget, fun hoffline => ?_, ?_⟩
  · exact ((hfound "n2").2.mp hoffline).1 (by decide)
  · rw [hsame _ (by decide), hr]

end Fleet.Roster
