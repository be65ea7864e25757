import Fleet.Proofs.NodeFile
import Fleet.Proofs.Plan.Make
import Fleet.Proofs.Roster

/-!
# Offline hosts count as if they were not listed

A request with offline hosts is compared with the request that has none, on the node file without the lines of these
hosts.  Parsing gives the same nodes but for the offline ones, the roster leaves those out, and nothing behind the
roster knows which hosts are offline.
-/

namespace Fleet.Plan

/-- A line may go on in another way behind its first field, if that is one of the ids. -/
def SameLine (ids : List String) (line line' : List Char) : Prop :=
  line = line' ∨ NodeFile.firstField line = NodeFile.firstField line' ∧ NodeFile.firstField line ∈ ids

/-- Two texts have the same lines, except for what the lines of some ids say behind the id. -/
def SameBut (ids : List String) (text text' : String) : Prop :=
  List.Forall₂ (SameLine ids) (Text.rawLines text.toList) (Text.rawLines text'.toList)

theorem filter_eq_of_sameLine {ids : List String} {lines lines' : List (List Char)}
    (h : List.Forall₂ (SameLine ids) lines lines') :
    lines.filter (NodeFile.firstField · ∉ ids) = lines'.filter (NodeFile.firstField · ∉ ids) := by
  induction h with
  | nil => rfl
  | cons hline _ ih =>
    rw [List.filter_cons, List.filter_cons, ih]
    rcases hline with rfl | ⟨hfirst, hid⟩
    · rfl
    · rw [← hfirst, if_neg (by simpa using hid), if_neg (by simpa using hid)]

theorem SameBut.without_eq {ids : List String} {text text' : String} (h : SameBut ids text text') :
    NodeFile.without ids text = NodeFile.without ids text' := by
  rw [NodeFile.without, NodeFile.without, Text.keepLines, Text.keepLines, filter_eq_of_sameLine h]

variable {c : Config} {r : Request} {text : String} {entries : List NodeEntry}

theorem make_without (h : NodeFile.parse r.nodeFile text = .ok entries) (stamp : String) :
    make c r (.ok text) stamp =
      make c { r with offline := [] } (.ok (NodeFile.without r.offline text)) stamp := by
  simp only [make, Except.mapError, bind, Except.bind, h, NodeFile.parse_without h]
  rw [Roster.resolve_filter]
  rfl

/-- **Offline hosts count as if they were not listed.**  From a node file that can be read, a request with offline
hosts gives the same fault or the same plan as the request without any, from the file without the lines of these
hosts.  So two such files that differ in nothing but what their lines say of offline hosts give the same. -/
theorem make_offline (c : Config) (r : Request) (stamp text : String) {entries : List NodeEntry}
    (h : NodeFile.parse r.nodeFile text = .ok entries) :
    make c r (.ok text) stamp =
      make c { r with offline := [] } (.ok (NodeFile.without r.offline text)) stamp ∧
    ∀ text' entries', NodeFile.parse r.nodeFile text' = .ok entries' → SameBut r.offline text text' →
      make c r (.ok text') stamp = make c r (.ok text) stamp := by
  refine ⟨make_without h stamp, fun text' entries' h' hsame => ?_⟩
  rw [make_without h stamp, make_without h' stamp, hsame.without_eq]

/-- A node file whose offline host has two lines, one of them of an unknown type, and a blank line. -/
def offlineNodes : String := "n1,a,t9000\nn2,b,m510\n\r\n n1 ,d,m510\nn3,c,r320"

/-- The same file with another descriptor and other types for the offline host. -/
def offlineNodes' : String := "n1,q,m510\nn2,b,m510\n\r\n n1 , z,r9\nn3,c,r320"

theorem make_offline_sample :
    ∃ plan, make sampleConfig { sampleRequest with offline := ["n1"] } (.ok offlineNodes) "" = .ok plan ∧
      plan.roster.hosts.map (·.id) = ["n2", "n3"] ∧
      make sampleConfig sampleRequest (.ok "n2,b,m510\n\r\nn3,c,r320") "" = .ok plan ∧
      make sampleConfig { sampleRequest with offline := ["n1"] } (.ok offlineNodes') "" = .ok plan := by
  have hsample : ∃ entries entries' plan, NodeFile.parse sampleRequest.nodeFile offlineNodes = .ok entries ∧
      NodeFile.parse sampleRequest.nodeFile offlineNodes' = .ok entries' ∧
      make sampleConfig { sampleRequest with offline := ["n1"] } (.ok offlineNodes) "" = .ok plan ∧
      plan.roster.hosts.map (·.id) = ["n2", "n3"] :=
    ⟨_, _, _, rfl, rfl, rfl, rfl⟩
  obtain ⟨entries, entries', plan, hentries, hentries', hplan, hids⟩ := hsample
  have hwithout : NodeFile.without ["n1"] offlineNodes = "n2,b,m510\n\r\nn3,c,r320" := rfl
  have hsame : SameBut ["n1"] offlineNodes offlineNodes' :=
    .cons (.inr ⟨rfl, by decide⟩) <| .cons (.inl rfl) <| .cons (.inl rfl) <| .cons (.inr ⟨rfl, by decide⟩) <|
      .cons (.inl rfl) .nil
  obtain ⟨hcut, hrest⟩ :=
    make_offline sampleConfig { sampleRequest with offline := ["n1"] } "" offlineNodes hentries
  refine ⟨plan, hplan, hids, ?_, (hrest _ _ hentries' hsame).trans hplan⟩
  rw [hplan, hwithout] at hcut
  exact hcut.symm

end Fleet.Plan
