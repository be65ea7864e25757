import Fleet.NodeFile
import Fleet.Table

/-!
# Hosts

A node's hostname is its descriptor followed by the domain of its type.  The roster of a run lists the
nodes that are not offline, one per id, in the order of the file.  An id that comes again keeps its
place and takes the later hostname.  An offline node is never resolved, so its type need not be known.
-/

namespace Fleet

/-- A machine that commands are sent to. -/
structure Host where
  id : String
  hostname : String
  deriving DecidableEq, Inhabited

/-! ### domains -/

abbrev Domains := Table String

namespace Domains

/-- The domains of the testbeds that need no configuration. -/
def builtin : Domains :=
  .ofList
    [("xl170", ".utah.cloudlab.us"), ("d6515", ".utah.cloudlab.us"),
      ("c6525-100g", ".utah.cloudlab.us"), ("m510", ".utah.cloudlab.us"),
      ("r320", ".apt.emulab.net")]

end Domains

/-! ### rosters -/

/-- The list with one more host; one of the same id stays in its place and takes the new hostname. -/
def Host.enrol (hosts : List Host) (h : Host) : List Host :=
  if h.id ∈ hosts.map (·.id) then
    hosts.map fun x => if x.id = h.id then h else x
  else hosts ++ [h]

/-- The hosts of a run, one per id. -/
structure Roster where
  hosts : List Host
  distinct : (hosts.map (·.id)).Nodup

theorem Host.map_id_enrol (hosts : List Host) (h : Host) :
    (Host.enrol hosts h).map (·.id) =
      if h.id ∈ hosts.map (·.id) then hosts.map (·.id) else hosts.map (·.id) ++ [h.id] := by
  unfold enrol
  split
  · rw [List.map_map]
    apply List.map_congr_left
    intro x _
    by_cases hx : x.id = h.id <;> simp [hx]
  · simp

theorem Host.nodup_enrol {hosts : List Host} (h : Host) (hd : (hosts.map (·.id)).Nodup) :
    ((Host.enrol hosts h).map (·.id)).Nodup := by
  rw [map_id_enrol]
  split
  · exact hd
  · rename_i hnot
    rw [List.nodup_append]
    refine ⟨hd, by simp, ?_⟩
    intro a ha b hb
    rw [List.mem_singleton.1 hb]
    exact fun hab => hnot (hab ▸ ha)

namespace Roster

@[ext] theorem ext {r s : Roster} (h : r.hosts = s.hosts) : r = s := by
  cases r; cases s; cases h; rfl

instance : DecidableEq Roster := fun r s =>
  decidable_of_iff (r.hosts = s.hosts) ⟨ext, fun h => h ▸ rfl⟩

def empty : Roster := ⟨[], .nil⟩

def add (r : Roster) (h : Host) : Roster :=
  ⟨Host.enrol r.hosts h, Host.nodup_enrol h r.distinct⟩

def hostOf (domains : Domains) (entry : NodeEntry) : Except Fault Host :=
  match domains.get? entry.nodeType with
  | some suffix => .ok ⟨entry.id, entry.descriptor ++ suffix⟩
  | none => .error (.unknownNodeType entry.id entry.nodeType)

/-- The roster with the hosts of more nodes, the offline ones left out. -/
def addEntries (domains : Domains) (offline : List String) :
    Roster → List NodeEntry → Except Fault Roster
  | r, [] => .ok r
  | r, entry :: rest =>
    if entry.id ∈ offline then addEntries domains offline r rest
    else
      match hostOf domains entry with
      | .ok h => addEntries domains offline (r.add h) rest
      | .error fault => .error fault

/-- The roster of a list of nodes. -/
def resolve (entries : List NodeEntry) (offline : List String) (domains : Domains) :
    Except Fault Roster :=
  addEntries domains offline empty entries

def get? (r : Roster) (id : String) : Option Host :=
  r.hosts.find? (·.id == id)

/-- The first hosts, as many as the limit allows; all of them without a limit. -/
def active (r : Roster) (limit : Option Nat) : List Host :=
  match limit with
  | some n => r.hosts.take n
  | none => r.hosts

end Roster

end Fleet
