import Coordination.Board.Gathering
import Coordination.Proofs.Board.Handle
import Coordination.Proofs.Board.Operation

/-!
Working through handles is working on the host. Whatever the parties of a gathering ask for, in
whatever order, they get the answers that the host gives to the same requests, and the host is left
as those leave it.
-/

namespace Coordination.RemoteGathering

/-! Handles and their boards while the gathering goes on. -/

/-- A process has a handle for each board that its party has attached, and the boards are there. -/
structure Serves (g : Gathering) (party : Nat) (p : Party) (d : Directory Cluster) : Prop where
  clientId : d.clientId = p.clientId
  lockTimeout : d.lockTimeout = p.lockTimeout
  channel : d.channel? .inProcess = some Cluster.inProcess
  attached : ∀ name,
    (party, name) ∈ g.attached ↔ (d.instance? name .inProcess).isSome
  handle : ∀ name handle, d.instance? name .inProcess = some handle →
    handle.name = name ∧ handle.clientId = p.clientId ∧ handle.lockTimeout = p.lockTimeout ∧
      ∃ b, handle.Attached g.host b

/-- The same gathering, with the host in a cluster and a process for each party. -/
structure Mirrors (c : Cluster) (remote : RemoteGathering) (direct : Gathering) : Prop where
  cluster : remote.cluster = c.withHost direct.host
  everybody : remote.directories.length = direct.parties.length
  serves : ∀ party p d, direct.parties[party]? = some p → remote.directories[party]? = some d →
    Serves direct party p d

theorem Mirrors.everyone {c : Cluster} {remote : RemoteGathering} {direct : Gathering}
    (mirrors : Mirrors c remote direct) (party : Nat) :
    (direct.parties[party]? = none ∧ remote.directories[party]? = none) ∨
      ∃ p d, direct.parties[party]? = some p ∧ remote.directories[party]? = some d := by
  by_cases inside : party < direct.parties.length
  · have insideToo := mirrors.everybody ▸ inside
    exact .inr ⟨_, _, List.getElem?_eq_getElem inside, List.getElem?_eq_getElem insideToo⟩
  · have outside := Nat.not_lt.mp inside
    have outsideToo := mirrors.everybody.trans_le outside
    exact .inl ⟨List.getElem?_eq_none outside, List.getElem?_eq_none outsideToo⟩

theorem mirrors_start (c : Cluster) (host : Host) (parties : List Party) :
    Mirrors c (start c host parties) (.start host parties) where
  cluster := rfl
  everybody := List.length_map ..
  serves := by
    intro party p d isParty found
    simp only [start, Gathering.start, List.getElem?_map] at found isParty
    rw [isParty] at found
    cases found
    constructor
    · rfl
    · rfl
    · rfl
    · intro name
      simp [directory, Directory.instance?, Gathering.start]
    · rintro name handle ⟨⟩

section Later

variable {c : Cluster} {remote : RemoteGathering} {direct next : Gathering} {party : Nat}
  {p : Party} {d : Directory Cluster}

theorem attached_later {h : Handle Cluster} {host after : Host} (kept : host.Keeps after)
    (attached : ∃ b, h.Attached host b) : ∃ b, h.Attached after b := by
  obtain ⟨b, inProcess, hosted, schema⟩ := attached
  obtain ⟨next, nextHosted, continues⟩ := kept h.name b hosted
  exact ⟨next, inProcess, nextHosted, continues.2.trans schema⟩

theorem Serves.later (serves : Serves direct party p d) (kept : direct.host.Keeps next.host)
    (same : ∀ name, (party, name) ∈ next.attached ↔ (party, name) ∈ direct.attached) :
    Serves next party p d where
  clientId := serves.clientId
  lockTimeout := serves.lockTimeout
  channel := serves.channel
  attached := fun name => (same name).trans (serves.attached name)
  handle := by
    intro name handle found
    obtain ⟨named, clientId, lockTimeout, attached⟩ := serves.handle name handle found
    exact ⟨named, clientId, lockTimeout, attached_later kept attached⟩

theorem Mirrors.later (mirrors : Mirrors c remote direct) {after : Host}
    (kept : direct.host.Keeps after) :
    Mirrors c { remote with cluster := c.withHost after } { direct with host := after } where
  cluster := rfl
  everybody := mirrors.everybody
  serves := by
    intro party p d isParty found
    exact (mirrors.serves party p d isParty found).later kept fun _ => Iff.rfl

theorem Mirrors.attached (mirrors : Mirrors c remote direct) {after : Host} {name : String}
    (isParty : direct.parties[party]? = some p) (kept : direct.host.Keeps after)
    (serves : Serves ⟨direct.parties, after, (party, name) :: direct.attached⟩ party p d) :
    Mirrors c ⟨c.withHost after, remote.directories.set party d⟩
      ⟨direct.parties, after, (party, name) :: direct.attached⟩ where
  cluster := rfl
  everybody := by
    rw [List.length_set]
    exact mirrors.everybody
  serves := by
    intro other q e isOther found
    by_cases same : other = party
    · subst same
      have sameParty : q = p := Option.some.inj (isOther.symm.trans isParty)
      have sameDirectory : e = d := by
        rw [List.getElem?_set_self', Option.map_eq_map, Option.map_eq_some_iff] at found
        obtain ⟨_, _, replaced⟩ := found
        exact replaced.symm
      exact sameParty ▸ sameDirectory ▸ serves
    · rw [List.getElem?_set_ne (Ne.symm same)] at found
      refine (mirrors.serves other q e isOther found).later kept fun name => ?_
      simp [same]

theorem instance?_cons (d : Directory Cluster) (name other : String) (handle : Handle Cluster) :
    { d with handles := ((name, .inProcess), handle) :: d.handles }.instance? other .inProcess =
      if other = name then some handle else d.instance? other .inProcess := by
  by_cases same : other = name
  · simp [Directory.instance?, same]
  · have apart : ((other, Transport.inProcess) == (name, .inProcess)) = false := by simp [same]
    simp [Directory.instance?, List.lookup_cons, apart, same]

theorem Serves.withHandle (serves : Serves direct party p d) {after : Host}
    (kept : direct.host.Keeps after) {handle : Handle Cluster}
    (attached : ∃ b, handle.Attached after b) {name : String} (named : handle.name = name)
    (clientId : handle.clientId = d.clientId) (lockTimeout : handle.lockTimeout = d.lockTimeout) :
    Serves ⟨direct.parties, after, (party, name) :: direct.attached⟩ party p
      { d with handles := ((name, .inProcess), handle) :: d.handles } where
  clientId := serves.clientId
  lockTimeout := serves.lockTimeout
  channel := serves.channel
  attached := by
    intro other
    rw [instance?_cons, List.mem_cons, serves.attached]
    by_cases same : other = name <;> simp [same]
  handle := by
    intro other found known
    rw [instance?_cons] at known
    split at known
    · rename_i same
      cases known
      exact ⟨named.trans same.symm, clientId.trans serves.clientId,
        lockTimeout.trans serves.lockTimeout, attached⟩
    · obtain ⟨named, clientId, lockTimeout, attached⟩ := serves.handle other found known
      exact ⟨named, clientId, lockTimeout, attached_later kept attached⟩

/-! One request. -/

theorem Serves.run_ensureHandle_new (serves : Serves direct party p d) {name : String}
    (unknown : d.instance? name .inProcess = none) (schema : Schema) :
    (Directory.ensureHandle name .inProcess schema).run.run (d, c.withHost direct.host) =
      let handle : Handle Cluster := ⟨name, schema, Cluster.inProcess, d.clientId, d.lockTimeout⟩
      some (match direct.host.attach name schema with
        | .ok after =>
            (.ok handle, { d with handles := ((name, .inProcess), handle) :: d.handles },
              c.withHost after)
        | .error fault => (.error fault, d, c.withHost direct.host)) := by
  rw [Directory.run_ensureHandle_of_no_handle serves.channel unknown, Directory.run_makeHandle,
    Handle.run_attach rfl]
  cases direct.host.attach name schema <;> rfl

/-- The same reply, and the same gathering after it. -/
def Agree (c : Cluster) (remote : Reply × RemoteGathering) (direct : Reply × Gathering) : Prop :=
  remote.1 = direct.1 ∧ Mirrors c remote.2 direct.2

theorem agree_attach (mirrors : Mirrors c remote direct) (isParty : direct.parties[party]? = some p)
    (found : remote.directories[party]? = some d) (name : String) (schema : Schema) :
    Agree c (remote.attach party d name schema) (direct.attach party name schema) := by
  have serves := mirrors.serves party p d isParty found
  -- A directory as it was is the same in its place.
  have kept (cluster : Cluster) :
      (⟨cluster, remote.directories.set party d⟩ : RemoteGathering) = { remote with cluster } := by
    obtain ⟨inside, here⟩ := List.getElem?_eq_some_iff.mp found
    exact congrArg _ (here ▸ List.set_getElem_self inside)
  unfold attach Gathering.attach
  cases known : d.instance? name .inProcess with
  | some handle =>
      obtain ⟨rfl, clientId, lockTimeout, b, inProcess, hosted, sameSchema⟩ :=
        serves.handle _ handle known
      -- The board has the schema of the handle, so the host agrees with the handle about any other.
      rw [Directory.run_ensureHandle_of_handle serves.channel known, Host.attach_of_hosted hosted, sameSchema]
      by_cases same : handle.schema = schema
      · simp only [if_pos same]
        refine ⟨rfl, ?_⟩
        rw [mirrors.cluster]
        apply mirrors.attached isParty direct.host.keeps_refl
        refine Serves.later serves direct.host.keeps_refl fun name => ?_
        rw [List.mem_cons, or_iff_right_of_imp]
        intro again
        cases again
        rw [serves.attached, known]
        rfl
      · simp only [if_neg same]
        exact ⟨rfl, (kept remote.cluster).symm ▸ mirrors⟩
  | none =>
      rw [mirrors.cluster, serves.run_ensureHandle_new known]
      cases attached : direct.host.attach name schema with
      | error fault =>
          have later : Mirrors c { remote with cluster := c.withHost direct.host } direct :=
            mirrors.later direct.host.keeps_refl
          rw [← kept] at later
          exact ⟨rfl, later⟩
      | ok after =>
          obtain ⟨kept, b, hosted, sameSchema⟩ := Host.keeps_attach attached
          refine ⟨rfl, mirrors.attached isParty kept (serves.withHandle kept ?_ rfl rfl rfl)⟩
          exact ⟨b, rfl, hosted, sameSchema⟩

theorem agree_operate (mirrors : Mirrors c remote direct)
    (isParty : direct.parties[party]? = some p) (found : remote.directories[party]? = some d)
    {name : String} {handle : Handle Cluster} (known : d.instance? name .inProcess = some handle)
    (operation : Operation) :
    Agree c (remote.operate handle operation) (direct.operate p name operation) := by
  have serves := mirrors.serves party p d isParty found
  obtain ⟨rfl, clientId, lockTimeout, b, attached⟩ := serves.handle _ handle known
  have commits := Handle.commits_perform (c := c) attached operation
  rw [Commits, clientId, lockTimeout, ← mirrors.cluster] at commits
  have operated : direct.host.operate handle.name p.clientId p.lockTimeout operation =
      (operation.onBoard p.clientId p.lockTimeout b).map direct.host.commit := by
    rw [Host.operate, Host.board_eq_ok_iff.mpr attached.hosted]
  rw [operate, Gathering.operate, commits, operated]
  cases result : operation.onBoard p.clientId p.lockTimeout b with
  | none => exact ⟨rfl, mirrors⟩
  | some result =>
      rw [result, Option.map_some] at operated
      exact ⟨rfl, mirrors.later (Host.keeps_operate operated)⟩

theorem agree_step (mirrors : Mirrors c remote direct) (request : Request) :
    Agree c (remote.step request) (direct.step request) := by
  cases request with
  | attach party name schema =>
      unfold step Gathering.step
      rcases mirrors.everyone party with ⟨noParty, nobody⟩ | ⟨p, d, isParty, found⟩
      · simp only [noParty, nobody]
        exact ⟨rfl, mirrors⟩
      · simp only [isParty, found]
        exact agree_attach mirrors isParty found name schema
  | operate party name operation =>
      unfold step Gathering.step
      rcases mirrors.everyone party with ⟨noParty, nobody⟩ | ⟨p, d, isParty, found⟩
      · simp only [noParty, nobody]
        exact ⟨rfl, mirrors⟩
      · simp only [isParty, found, Option.bind_some]
        have attached := (mirrors.serves party p d isParty found).attached name
        cases known : d.instance? name .inProcess with
        | none =>
            simp only [known, Option.isSome_none, Bool.false_eq_true, iff_false] at attached
            simp only [if_neg attached]
            exact ⟨rfl, mirrors⟩
        | some handle =>
            simp only [known, Option.isSome_some, iff_true] at attached
            simp only [if_pos attached]
            exact agree_operate mirrors isParty found known operation
  | call method args =>
      rw [step, Gathering.step, mirrors.cluster, Cluster.invoke_inProcess]
      cases performed : direct.host.perform method args with
      | none => exact ⟨rfl, mirrors⟩
      | some reaction =>
          obtain ⟨ending, after, millis⟩ := reaction
          cases ending with
          | crashed text => exact ⟨rfl, mirrors⟩
          | answered outcome => exact ⟨rfl, mirrors.later (Host.keeps_perform performed)⟩

theorem agree_run (mirrors : Mirrors c remote direct) (requests : List Request) :
    (remote.run requests).1 = (direct.run requests).1 ∧
      Mirrors c (remote.run requests).2 (direct.run requests).2 := by
  induction requests generalizing remote direct with
  | nil => exact ⟨rfl, mirrors⟩
  | cons request rest induction =>
      obtain ⟨sameReply, stepped⟩ := agree_step mirrors request
      obtain ⟨sameReplies, ran⟩ := induction stepped
      refine ⟨?_, ran⟩
      simp only [run, Gathering.run, sameReply, sameReplies]

end Later

/-- The parties get the answers of the host, the host is left alike, and every handle in use still
does on the host what its operations do on the board. -/
theorem run_refines (c : Cluster) (host : Host) (parties : List Party) (requests : List Request) :
    let remote := (start c host parties).run requests
    let direct := (Gathering.start host parties).run requests
    remote.1 = direct.1 ∧ remote.2.cluster = c.withHost direct.2.host ∧
      ∀ d ∈ remote.2.directories, ∀ name handle, d.instance? name .inProcess = some handle →
        ∃ b, direct.2.host.boards.get? name = some b ∧ ∀ operation : Operation,
          Commits c direct.2.host (operation.perform handle)
            (operation.onBoard d.clientId d.lockTimeout b) := by
  intro remote direct
  obtain ⟨sameReplies, mirrors⟩ := agree_run (mirrors_start c host parties) requests
  refine ⟨sameReplies, mirrors.cluster, ?_⟩
  intro d member name handle known
  obtain ⟨party, found⟩ := List.getElem?_of_mem member
  rcases mirrors.everyone party with ⟨-, nobody⟩ | ⟨p, _, isParty, found'⟩
  · cases nobody.symm.trans found
  · cases found'.symm.trans found
    have serves := mirrors.serves party p d isParty found
    obtain ⟨rfl, clientId, lockTimeout, b, attached⟩ := serves.handle name handle known
    refine ⟨b, attached.hosted, fun operation => ?_⟩
    rw [serves.clientId, serves.lockTimeout, ← clientId, ← lockTimeout]
    exact Handle.commits_perform attached operation

example :
    let schema : Schema := ⟨["OPS"], ["L"]⟩
    let cluster := Cluster.start ⟨"node", "task"⟩ true
    ((start cluster .empty [⟨"first", none⟩, ⟨"second", none⟩]).run
      [.attach 0 "B" schema, .attach 1 "B" schema, .operate 0 "B" (.lock "L"),
        .operate 1 "B" (.lock "L"), .operate 1 "B" (.lockWithin "L" 5),
        .operate 1 "B" (.unlock "L"), .operate 1 "B" (.addAndRead ⟨0⟩ (-3)),
        .operate 0 "B" (.read ⟨1⟩)]).1 =
      [some (.ok .done), some (.ok .done), some (.ok .done), none,
        some (.error (.lockNotAcquired "B" "L" 5)), some (.error (.lockNotHeld "B" "L" "second")),
        some (.ok (.number (-3))), some (.error (.unregisteredCounter "B" 1))] := by
  decide +kernel

end Coordination.RemoteGathering
