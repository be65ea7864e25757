import Fleet.Proofs.NodeFile
import Fleet.Proofs.Plan.Phases

/-!
# Who is contacted

From the text of the node file to the commands of the plan: the hosts are those of the lines that are not offline, the
active ones are the first of them, and each phase goes to the hosts that the request wants it to go to, with one
command for each.
-/

namespace Fleet.Plan

/-- The nodes that a text lists and that are not offline. -/
def online (r : Request) (text : String) : List NodeEntry := (NodeFile.listed text).filter (·.id ∉ r.offline)

/-- The domain of a node type: the configured one, or else the built-in one. -/
def suffix? (c : Config) (nodeType : String) : Option String :=
  (c.domains.get? nodeType).or (Domains.builtin.get? nodeType)

variable {c : Config} {r : Request} {text stamp : String} {plan : Plan}

theorem lists_roster (h : make c r (.ok text) stamp = .ok plan) :
    Roster.Lists (suffix? c) (online r text) plan.roster := by
  obtain ⟨text', entries, sync, data, experiment, made⟩ := made_of_make h
  obtain rfl : text = text' := Except.ok.inj made.text_eq
  have hlists := Roster.lists_resolve made.roster_eq
  rw [← NodeFile.listed_of_parse made.entries_eq] at hlists
  have hsuffix : suffix? c = (Domains.builtin.merge c.domains).get? :=
    funext fun nodeType => (Table.get?_merge _ _ nodeType).symm
  rw [hsuffix]
  exact hlists

theorem active_eq_take (s : Roster) (limit : Option Nat) :
    s.active limit = s.hosts.take (min (limit.getD s.hosts.length) s.hosts.length) := by
  cases limit with
  | none => simp [Roster.active]
  | some n => simp [Roster.active, List.take_eq_take_iff]

theorem mem_hosts {s : Roster} {suffix : String → Option String} (hs : Roster.Lists suffix (online r text) s)
    {id : String} : id ∈ s.hosts.map (·.id) ↔ id ∉ r.offline ∧ id ∈ (NodeFile.listed text).map (·.id) := by
  have hids : (online r text).map (·.id) = ((NodeFile.listed text).map (·.id)).filter (· ∉ r.offline) := by
    rw [List.filter_map]
    rfl
  rw [hs.ids, List.mem_eraseDups, hids, List.mem_filter, and_comm]
  simp

theorem not_offline {s : Roster} {suffix : String → Option String} (hs : Roster.Lists suffix (online r text) s)
    {h : Host} (hmem : h ∈ s.hosts) : h.id ∉ r.offline :=
  ((mem_hosts hs).mp (List.mem_map_of_mem hmem)).1

/-- **Who is contacted.**  The hosts of a plan are the different ids of the lines that are not offline, in the order
in which they come first, each with the hostname of its last such line; the active ones are the first of them, as
many as the limit allows.  The plan has the phases of the request's agenda and no others: every job is of the class
of its phase, the user's command is carried as it was given, and no command goes to a host that is offline or, except
for sending files, behind the limit. -/
theorem make_contacts (h : make c r (.ok text) stamp = .ok plan) :
    plan.roster.hosts.map (·.id) = ((online r text).map (·.id)).eraseDups ∧
    (∀ host ∈ plan.roster.hosts, Roster.hostNamed? (suffix? c) (online r text) host.id = some host) ∧
    ∃ active, active = plan.roster.hosts.take (min (r.limit.getD plan.roster.hosts.length) plan.roster.hosts.length) ∧
      plan.phases.map Phase.contacts = agenda r plan.roster.hosts active ∧
      ∀ phase ∈ plan.phases,
        (∀ job ∈ phase.jobs, job.jobClass = phase.jobClass ∧
          (phase.jobClass = .command → r.command = some job.command)) ∧
        ∀ job ∈ phase.allJobs, job.host ∈ plan.roster.hosts ∧ job.host.id ∉ r.offline ∧
          (phase.jobClass ≠ .sync → job.host ∈ active) := by
  have hlists := lists_roster h
  refine ⟨hlists.ids, hlists.hosts, _, rfl, ?_, fun phase hphase => ?_⟩
  · rw [← active_eq_take]
    exact map_contacts h
  · obtain ⟨hplanned, hcommand⟩ := planned_of_make h hphase
    refine ⟨fun job hjob => ⟨hplanned.jobClass job hjob, fun hclass => hcommand hclass job hjob⟩, fun job hjob => ?_⟩
    have haudience := hplanned.host job hjob
    have hhost : job.host ∈ plan.roster.hosts := (plan.audience_sublist r phase).subset haudience
    refine ⟨hhost, not_offline hlists hhost, fun hclass => ?_⟩
    rw [← active_eq_take]
    rwa [audience, if_neg hclass] at haudience

/-- The text of a node file with an offline host of an unknown type, a host behind the limit and a host that is listed
twice. -/
def contactNodes : String := "n1,a,m510\nn2,b,r320\nn3,c,t9000\nn4,d,m510\nn1,e,r320\n"

theorem make_contacts_sample :
    ∃ plan, make { sampleConfig with domains := .ofList [("m510", ".lab")] }
        { sampleRequest with limit := some 2, offline := ["n3"], command := some "uptime" } (.ok contactNodes) "" =
          .ok plan ∧
      plan.roster.hosts = [⟨"n1", "e.apt.emulab.net"⟩, ⟨"n2", "b.apt.emulab.net"⟩, ⟨"n4", "d.lab"⟩] ∧
      plan.phases.map Phase.contacts =
        [(.command, [(⟨"n1", "e.apt.emulab.net"⟩, .host), (⟨"n2", "b.apt.emulab.net"⟩, .host)]),
          (.experiment "bench", [(⟨"n2", "b.apt.emulab.net"⟩, .host)])] ∧
      ∀ phase ∈ plan.phases, ∀ job ∈ phase.allJobs, job.host.id ∉ ["n3"] := by
  have hsample : ∃ plan, make { sampleConfig with domains := .ofList [("m510", ".lab")] }
        { sampleRequest with limit := some 2, offline := ["n3"], command := some "uptime" } (.ok contactNodes) "" =
          .ok plan ∧
      plan.roster.hosts = [⟨"n1", "e.apt.emulab.net"⟩, ⟨"n2", "b.apt.emulab.net"⟩, ⟨"n4", "d.lab"⟩] :=
    ⟨_, rfl, rfl⟩
  obtain ⟨plan, hplan, hhosts⟩ := hsample
  obtain ⟨-, -, active, hactive, hphases, hjobs⟩ := make_contacts hplan
  refine ⟨plan, hplan, hhosts, ?_, fun phase hphase job hjob => ((hjobs phase hphase).2 job hjob).2.1⟩
  rw [hphases, hactive, hhosts]
  rfl

end Fleet.Plan
