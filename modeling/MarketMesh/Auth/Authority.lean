import MarketMesh.Auth.Service
import MarketMesh.Lib.Pool

/-!
# Who a session answers to

The row in PostgreSQL says which version of a session is current, the entry in Redis says which
access token belongs to a version, and nothing keeps the two in step.  What makes them agree is that
a version is committed once, by one call (`Ledger`), and that a command for Redis carries the
version and the token of the call that committed it (`Cached`); an entry that is late, repeated or
lost can then only be one for another version.  `Since` and `FoundIn` follow a call from the state
in which it starts, and from the state of its `Find`, to the state in which it is accepted.
-/

set_option autoImplicit false

namespace MarketMesh.Auth

open Machine

/-- The version a call has committed, as long as the call has it at hand. -/
def Issuer.issue (x : Issuer) (i : Nat) : Option Issue :=
  match x.pc with
  | .created | .activating _ | .activated _ =>
    some { id := x.tokens.record.id, version := x.tokens.record.version, issuer := i }
  | .rotated record _ | .refreshed record =>
    some { id := record.id, version := record.version, issuer := i }
  | _ => none

/-- The call has not committed anything yet. -/
def IssuerPc.isPending : IssuerPc → Bool
  | .prepared | .refreshing _ _ => true
  | _ => false

theorem Issuer.issue_of_pending {x : Issuer} (h : x.pc.isPending = true) (i : Nat) :
    x.issue i = none := by
  obtain ⟨tokens, pc⟩ := x
  cases pc <;> first | rfl | cases h

/-- The tokens of a call are for the session it is about. -/
structure Issuer.Minted (x : Issuer) : Prop where
  access : x.tokens.access.id = x.tokens.record.id
  previous : ∀ previous now, x.pc = .refreshing previous now → previous.id = x.tokens.record.id

/-- The record that `Find` returned to a call that has not failed. -/
def ReaderPc.record : ReaderPc → Option Record
  | .found record | .read record _ | .succeeded record | .revoked record => some record
  | .started | .failed => none

/-- The record with which `Authenticate` succeeded. -/
def ReaderPc.accepted : ReaderPc → Option Record
  | .succeeded record | .revoked record => some record
  | _ => none

theorem ReaderPc.record_of_accepted {pc : ReaderPc} {record : Record}
    (h : pc.accepted = some record) : pc.record = some record := by
  cases pc <;> first | exact h | cases h

namespace Service

variable {lifetimes : Lifetimes} {sha256 : Bytes → Digest} {s s' : Service} {tables : SessionTables}
  {tables' : SessionTables} {x : Issuer} {token : Token} {ok : Service → Action → Prop} {i : Nat}
  {record : Record} {access : Access} {id : SessionID} {now : Time} {tokens : Tokens}
  {reason : String}

/-! ## What a step can do -/

/-- The tables after a transaction that at most revokes. -/
def Revoked (tables tables' : SessionTables) : Prop :=
  tables' = tables ∨ ∃ p now reason, tables' = tables.revokeWhere p now reason

/-- What a step of a reader does to it. -/
inductive ReaderStep (sha256 : Bytes → Digest) (s : Service) (x : Reader) : ReaderPc → Prop
  | found {record : Record} (hpc : x.pc = .started)
      (hfind : s.tables.find x.token.id = .ok record) : ReaderStep sha256 s x (.found record)
  | read {record : Record} {access : Access} (hpc : x.pc = .found record)
      (hget : s.redis x.token.id = some access) : ReaderStep sha256 s x (.read record access)
  | succeeded {record : Record} {access : Access} (hpc : x.pc = .read record access)
      (hcheck : Authentic sha256 x.token record access s.now) :
      ReaderStep sha256 s x (.succeeded record)
  | revoked {record : Record} (hpc : x.pc = .succeeded record) :
      ReaderStep sha256 s x (.revoked record)
  | failed : ReaderStep sha256 s x .failed

/-- A step in which a call commits a version of a session. -/
inductive Commit (sha256 : Bytes → Digest) (s : Service) : Service → Prop
  | inserted {i x sessions} (hx : s.issuers[i]? = some x) (hpc : x.pc = .prepared)
      (hs : s.tables.sessions.insert
        { record := x.tokens.record, refreshDigest := sha256 x.tokens.refresh.value } =
          some sessions) :
      Commit sha256 s
        (s.commit i x .created x.tokens.record { s.tables with sessions := sessions })
  | rotated {i x previous now next tables record} (hx : s.issuers[i]? = some x)
      (hpc : x.pc = .refreshing previous now)
      (hr : s.tables.Rotation previous.id (sha256 previous.value) next now tables (.ok record)) :
      Commit sha256 s (s.commit i x (.rotated record now) record tables)

/-- **What a step of the service can do.** -/
inductive Change (sha256 : Bytes → Digest) (s : Service) : Service → Prop
  | ticked {time} (h : s.clock ≤ time) : Change sha256 s { s with clock := time }
  | entered {pc record secrets tokens} (hmint : mint sha256 record secrets = some tokens)
      (hpc : pc = .prepared ∨
        ∃ previous now, pc = .refreshing previous now ∧ previous.id = record.id) :
      Change sha256 s (s.enter pc tokens)
  | committed {s' : Service} (h : Commit sha256 s s') : Change sha256 s s'
  | activating {i : Nat} {x : Issuer} {record : Record} (hx : s.issuers[i]? = some x)
      (hpc : x.pc = .created) (hfind : s.tables.find x.tokens.record.id = .ok record) :
      Change sha256 s (s.setIssuer i { x with pc := .activating record })
  | published {i x pc record now} (hx : s.issuers[i]? = some x)
      (hpc : (x.pc = .activating record ∧ pc = .activated record ∧
          record.id = x.tokens.record.id ∧ record.version = x.tokens.record.version ∧
          record.revokedAt = none) ∨
        (x.pc = .rotated record now ∧ pc = .refreshed record)) :
      Change sha256 s { s.setIssuer i { x with pc := pc } with
        commands := s.commands ++ put sha256 x.tokens record now }
  | ended {i : Nat} {x : Issuer} {tables : SessionTables} (hx : s.issuers[i]? = some x)
      (ht : Revoked s.tables tables) :
      Change sha256 s { s.setIssuer i { x with pc := .ended } with tables := tables }
  | revoked {tables : SessionTables} (ht : Revoked s.tables tables) :
      Change sha256 s { s with tables := tables }
  | delivered {command} (hmem : command ∈ s.commands) :
      Change sha256 s { s with
        redis := Function.update s.redis command.id
          (putScript (s.redis command.id) command.access).1 }
  | evicted {id : SessionID} :
      Change sha256 s { s with redis := Function.update s.redis id none }
  | called {purpose token} :
      Change sha256 s { s with
        readers := s.readers ++ [{ purpose := purpose, token := token, pc := .started }] }
  | reader {r x pc tables} (hx : s.readers[r]? = some x) (hpc : ReaderStep sha256 s x pc)
      (ht : Revoked s.tables tables) :
      Change sha256 s { s.setReader r { x with pc := pc } with tables := tables }

theorem toOption_eq_some {ε α : Type} {e : Except ε α} {a : α} (h : e.toOption = some a) :
    e = .ok a := by
  cases e with
  | error => cases h
  | ok => cases h; rfl

theorem revoke_revoked (h : tables.revoke id now reason = .ok tables') :
    Revoked tables tables' := by
  rw [SessionTables.revoke] at h
  split at h
  · cases h
    exact .inr ⟨_, _, _, rfl⟩
  · cases h

theorem revokeAll_revoked {subject} (h : tables.revokeAll subject now reason = .ok tables') :
    Revoked tables tables' := by
  rw [SessionTables.revokeAll] at h
  split at h
  · cases h
    exact .inr ⟨_, _, _, rfl⟩
  · cases h

theorem rotate_change (hx : s.issuers[i]? = some x)
    (h : s.rotate lifetimes sha256 i x = some s') : Change sha256 s s' := by
  rw [rotate] at h
  split at h
  · rename_i previous now hpc
    have hr := s.tables.rotate_rotation previous.id (sha256 previous.value)
      (sha256 x.tokens.refresh.value) now lifetimes.accessTTL lifetimes.idleTTL
    generalize s.tables.rotate previous.id (sha256 previous.value)
      (sha256 x.tokens.refresh.value) now lifetimes.accessTTL lifetimes.idleTTL = out at h hr
    obtain ⟨tables, result⟩ := out
    cases result with
    | ok =>
      cases h
      exact .committed (.rotated hx hpc hr)
    | error =>
      cases h
      cases hr with
      | refused => exact .ended hx (.inl rfl)
      | reused => exact .ended hx (.inr ⟨_, _, _, rfl⟩)
  · cases h

theorem publish_change (hx : s.issuers[i]? = some x)
    (h : s.publish sha256 i x = some s') : Change sha256 s s' := by
  rw [publish] at h
  split at h
  · rename_i record hpc
    split at h
    · rename_i hsame
      cases h
      exact .published hx (.inl ⟨hpc, rfl, hsame.1.1, hsame.1.2.2.1, hsame.2.2.2.2.1⟩)
    · cases h
      exact .ended hx (.inl rfl)
  · rename_i record now hpc
    cases h
    exact .published hx (.inr ⟨hpc, rfl⟩)
  · cases h

theorem get_eq_some (h : s.get id = some access) :
    s.redis id = some access := by
  rw [get] at h
  split at h
  · cases h
  · exact (Option.filter_eq_some_iff.mp h).1

theorem read_eq_some {r : Nat} {x : Reader} {a : Action} (h : s.read sha256 r x a = some s') :
    ∃ pc tables, ReaderStep sha256 s x pc ∧ Revoked s.tables tables ∧
      s' = { s.setReader r { x with pc := pc } with tables := tables } := by
  cases a with simp only [read] at h
  | find =>
    split at h
    · rename_i hpc
      split at h
      · rename_i record hfind
        cases h
        exact ⟨_, _, .found hpc hfind, .inl rfl, rfl⟩
      · cases h
        exact ⟨_, _, .failed, .inl rfl, rfl⟩
    · cases h
  | get =>
    split at h
    · rename_i record hpc
      split at h
      · rename_i access hget
        cases h
        exact ⟨_, _, .read hpc (get_eq_some hget), .inl rfl, rfl⟩
      · cases h
        exact ⟨_, _, .failed, .inl rfl, rfl⟩
    · cases h
  | check =>
    split at h
    · rename_i record access hpc
      split at h
      · rename_i hcheck
        cases h
        exact ⟨_, _, .succeeded hpc hcheck, .inl rfl, rfl⟩
      · cases h
        exact ⟨_, _, .failed, .inl rfl, rfl⟩
    · cases h
  | revoke =>
    split at h
    · rename_i record hpc hpurpose
      obtain ⟨tables, ht, rfl⟩ := Option.map_eq_some_iff.mp h
      exact ⟨_, _, .revoked hpc, revoke_revoked (toOption_eq_some ht), rfl⟩
    · rename_i record hpc hpurpose
      obtain ⟨tables, ht, rfl⟩ := Option.map_eq_some_iff.mp h
      exact ⟨_, _, .revoked hpc, revokeAll_revoked (toOption_eq_some ht), rfl⟩
    · cases h
  | _ => cases h

theorem insert_change (hx : s.issuers[i]? = some x) (hpc : x.pc = .prepared)
    (h : s.tables.insertSession x.tokens.record (sha256 x.tokens.refresh.value) = some tables) :
    Change sha256 s (s.commit i x .created x.tokens.record tables) := by
  obtain ⟨sessions, hs, rfl⟩ := SessionTables.insertSession_eq_some h
  exact .committed (.inserted hx hpc hs)

theorem step_change {a : Action} (h : s.step lifetimes sha256 a = some s') :
    Change sha256 s s' := by
  cases a with simp only [step] at h
  | tick time =>
    split at h <;> cases h
    rename_i hle
    exact .ticked hle
  | prepare =>
    split at h
    · cases h
    · obtain ⟨tokens, hmint, rfl⟩ := Option.map_eq_some_iff.mp h
      exact .entered hmint (.inl rfl)
  | create i =>
    split at h
    · rename_i x hx
      split at h
      · rename_i hpc
        split at h
        · rename_i tables hcreate
          cases h
          exact insert_change hx hpc (SessionTables.create_eq_ok hcreate).2
        · cases h
          exact .ended hx (.inl rfl)
      · cases h
    · cases h
  | createSession i =>
    split at h
    · rename_i x hx
      split at h
      · rename_i hpc
        split at h
        · rename_i tables hinsert
          cases h
          exact insert_change hx hpc hinsert
        · cases h
          exact .ended hx (.inl rfl)
      · cases h
    · cases h
  | activate i =>
    split at h
    · rename_i x hx
      split at h
      · rename_i hpc
        split at h
        · rename_i record hfind
          cases h
          exact .activating hx hpc hfind
        · cases h
          exact .ended hx (.inl rfl)
      · cases h
    · cases h
  | publish =>
    obtain ⟨x, hx, h⟩ := Option.bind_eq_some_iff.mp h
    exact publish_change hx h
  | discard i =>
    split at h
    · rename_i x hx
      split at h
      · obtain ⟨tables, ht, rfl⟩ := Option.map_eq_some_iff.mp h
        exact .ended hx (revoke_revoked (toOption_eq_some ht))
      · cases h
    · cases h
  | refresh =>
    obtain ⟨previous, -, h⟩ := Option.bind_eq_some_iff.mp h
    obtain ⟨tokens, hmint, rfl⟩ := Option.map_eq_some_iff.mp h
    exact .entered hmint (.inr ⟨previous, s.now, rfl, rfl⟩)
  | rotate =>
    obtain ⟨x, hx, h⟩ := Option.bind_eq_some_iff.mp h
    exact rotate_change hx h
  | deliver =>
    obtain ⟨command, hcommand, rfl⟩ := Option.map_eq_some_iff.mp h
    exact .delivered (List.mem_of_getElem? hcommand)
  | evict =>
    cases h
    exact .evicted
  | authenticate =>
    obtain ⟨token, -, rfl⟩ := Option.map_eq_some_iff.mp h
    exact .called
  | find | get | check | revoke =>
    obtain ⟨x, hx, h⟩ := Option.bind_eq_some_iff.mp h
    obtain ⟨pc, tables, hpc, ht, rfl⟩ := read_eq_some h
    exact .reader hx hpc ht
  | revokeSessions | revokeSession =>
    cases h
    exact .revoked (.inr ⟨_, _, _, rfl⟩)

/-! ## The calls that mint -/

theorem mint_eq_some {secrets} (h : mint sha256 record secrets = some tokens) :
    tokens.record = record ∧ tokens.access.id = record.id := by
  rw [mint] at h
  split at h
  · obtain ⟨access, haccess, h⟩ := Option.bind_eq_some_iff.mp h
    obtain ⟨refresh, -, h⟩ := Option.bind_eq_some_iff.mp h
    split at h
    · cases h
    · cases h
      rw [newToken] at haccess
      split at haccess
      · cases haccess
        exact ⟨rfl, rfl⟩
      · cases haccess
  · cases h

/-- **What a step that commits no version does to the calls.** -/
inductive Moves (l : List Issuer) : List Issuer → Prop
  | same : Moves l l
  | entered {x : Issuer} (hpc : x.pc.isPending = true) (hx : x.Minted) : Moves l (l ++ [x])
  | moved {i x pc} (hx : l[i]? = some x) (hpc : pc.isPending = false)
      (hissue : ∀ e, { x with pc := pc }.issue i = some e → x.issue i = some e) :
      Moves l (l.set i { x with pc := pc })

/-- A step that commits no version of a session. -/
structure Calm (s s' : Service) : Prop where
  issues : s'.issues = s.issues
  version : ∀ id, (s'.tables.sessions.find id).map (fun row ↦ row.record.version) =
    (s.tables.sessions.find id).map fun row ↦ row.record.version
  moves : Moves s.issuers s'.issuers

theorem Revoked.find (h : Revoked tables tables') (id : SessionID) : ∃ g : SessionRow → SessionRow,
      tables'.sessions.find id = (tables.sessions.find id).map g ∧
      ∀ row, (g row).record.version = row.record.version ∧
        (row.record.revokedAt.isSome → (g row).record.revokedAt.isSome) := by
  obtain rfl | ⟨p, now, reason, rfl⟩ := h
  · exact ⟨fun row ↦ row, by rw [Option.map_id'], fun row ↦ ⟨rfl, fun h ↦ h⟩⟩
  · refine ⟨_, tables.find_revokeWhere p now reason id, fun row ↦ ?_⟩
    split
    · exact ⟨rfl, fun _ ↦ rfl⟩
    · exact ⟨rfl, fun h ↦ h⟩

theorem Revoked.version (h : Revoked tables tables')
    (id : SessionID) : (tables'.sessions.find id).map (fun row ↦ row.record.version) =
      (tables.sessions.find id).map fun row ↦ row.record.version := by
  obtain ⟨g, hfind, hg⟩ := h.find id
  rw [hfind, Option.map_map]
  exact congrArg (Option.map · _) (funext fun row ↦ (hg row).1)

/-- A step commits a version or it does not. -/
theorem Change.commits (h : Change sha256 s s') : Calm s s' ∨ Commit sha256 s s' := by
  cases h with
  | committed h => exact .inr h
  | @entered pc record secrets tokens hmint hpc =>
    obtain ⟨hrecord, haccess⟩ := mint_eq_some hmint
    refine .inl ⟨rfl, fun _ ↦ rfl, .entered ?_ ⟨by rw [haccess, hrecord], ?_⟩⟩
    · obtain rfl | ⟨previous, now, rfl, -⟩ := hpc <;> rfl
    · intro previous now hprevious
      obtain rfl | ⟨previous', now', rfl, hid⟩ := hpc
      · cases hprevious
      · cases hprevious
        rw [hid, hrecord]
  | activating hx hpc =>
    refine .inl ⟨rfl, fun _ ↦ rfl, .moved hx rfl fun e he ↦ ?_⟩
    rw [Issuer.issue, hpc]
    exact he
  | @published i x pc record now hx hpc =>
    refine .inl ⟨rfl, fun _ ↦ rfl, .moved hx ?_ fun e he ↦ ?_⟩
    · obtain ⟨-, rfl, -⟩ | ⟨-, rfl⟩ := hpc <;> rfl
    · obtain ⟨hpc, rfl, -⟩ | ⟨hpc, rfl⟩ := hpc
      · rw [Issuer.issue, hpc]
        exact he
      · rw [Issuer.issue, hpc]
        exact he
  | ended hx ht => exact .inl ⟨rfl, ht.version, .moved hx rfl nofun⟩
  | revoked ht | reader _ _ ht => exact .inl ⟨rfl, ht.version, .same⟩
  | ticked | delivered | evicted | called => exact .inl ⟨rfl, fun _ ↦ rfl, .same⟩

/-! ## The versions of the sessions -/

/-- Each version of a session was committed by one call, and the row has the last one. -/
structure Ledger (s : Service) : Prop where
  minted : ∀ (i : Nat) (x : Issuer), s.issuers[i]? = some x → x.Minted
  issuer : ∀ e ∈ s.issues, ∃ x, s.issuers[e.issuer]? = some x ∧ x.pc.isPending = false ∧
    e.id = x.tokens.record.id
  issued : ∀ (i : Nat) (x : Issuer), s.issuers[i]? = some x →
    ∀ e, x.issue i = some e → e ∈ s.issues
  unique : ∀ e ∈ s.issues, ∀ e' ∈ s.issues, e.id = e'.id → e.version = e'.version →
    e.issuer = e'.issuer
  once : ∀ e ∈ s.issues, ∀ e' ∈ s.issues, e.issuer = e'.issuer → e = e'
  row : ∀ id row, s.tables.sessions.find id = some row →
    ∃ e ∈ s.issues, e.id = id ∧ e.version = row.record.version
  version : ∀ e ∈ s.issues, ∃ row, s.tables.sessions.find e.id = some row ∧
    e.version ≤ row.record.version

theorem Moves.origin {l l'} (h : Moves l l') {x'}
    (hx' : l'[i]? = some x') : x'.pc.isPending = true ∧ x'.Minted ∨
      ∃ x, l[i]? = some x ∧ x'.tokens = x.tokens ∧ (x'.pc = x.pc ∨ x'.pc.isPending = false) ∧
        ∀ e, x'.issue i = some e → x.issue i = some e := by
  cases h with
  | same => exact .inr ⟨x', hx', rfl, .inl rfl, fun e he ↦ he⟩
  | entered hpc hy =>
    obtain ⟨-, rfl⟩ | hx := Pool.of_append hx'
    · exact .inl ⟨hpc, hy⟩
    · exact .inr ⟨x', hx, rfl, .inl rfl, fun e he ↦ he⟩
  | @moved j y pc hy hpc hissue =>
    obtain ⟨rfl, rfl⟩ | ⟨-, hx⟩ := Pool.of_set hx'
    · exact .inr ⟨y, hy, rfl, .inr hpc, hissue⟩
    · exact .inr ⟨x', hx, rfl, .inl rfl, fun e he ↦ he⟩

theorem Moves.kept {l l'} (h : Moves l l')
    (hx : l[i]? = some x) : ∃ x', l'[i]? = some x' ∧ x'.tokens = x.tokens ∧
      (x.pc.isPending = false → x'.pc.isPending = false) := by
  cases h with
  | same => exact ⟨x, hx, rfl, fun h ↦ h⟩
  | entered => exact ⟨x, Pool.append hx _, rfl, fun h ↦ h⟩
  | @moved j y pc hy hpc =>
    by_cases hij : i = j
    · subst hij
      cases hx.symm.trans hy
      exact ⟨_, Pool.set_self hx _, rfl, fun _ ↦ hpc⟩
    · exact ⟨x, Pool.set_of_ne hx hij _, rfl, fun h ↦ h⟩

theorem Ledger.calm (hl : s.Ledger) (h : Calm s s') : s'.Ledger := by
  obtain ⟨hi, hv, hm⟩ := h
  have hmap (id : SessionID) (row : SessionRow) (hrow : s.tables.sessions.find id = some row) :
      ∃ row', s'.tables.sessions.find id = some row' ∧
        row'.record.version = row.record.version := by
    have := hv id
    rw [hrow, Option.map_some] at this
    exact Option.map_eq_some_iff.mp this
  constructor
  · intro i x' hx'
    obtain ⟨-, hx'⟩ | ⟨x, hx, htokens, hpc, -⟩ := hm.origin hx'
    · exact hx'
    · obtain ⟨haccess, hprevious⟩ := hl.minted i x hx
      refine ⟨by rw [htokens]; exact haccess, fun previous now hnow ↦ ?_⟩
      rw [htokens]
      obtain hpc | hpc := hpc
      · exact hprevious previous now (hpc ▸ hnow)
      · rw [hnow] at hpc
        cases hpc
  · intro e he
    obtain ⟨x, hx, hpc, hid⟩ := hl.issuer e (hi ▸ he)
    obtain ⟨x', hx', htokens, hkept⟩ := hm.kept hx
    exact ⟨x', hx', hkept hpc, by rw [htokens, hid]⟩
  · intro i x' hx' e he
    rw [hi]
    obtain ⟨hpc, -⟩ | ⟨x, hx, -, -, hissue⟩ := hm.origin hx'
    · rw [Issuer.issue_of_pending hpc] at he
      cases he
    · exact hl.issued i x hx e (hissue e he)
  · rw [hi]
    exact hl.unique
  · rw [hi]
    exact hl.once
  · intro id row hrow
    have := hv id
    rw [hrow, Option.map_some, eq_comm, Option.map_eq_some_iff] at this
    obtain ⟨row₀, hrow₀, hversion⟩ := this
    obtain ⟨e, he, hid, hev⟩ := hl.row id row₀ hrow₀
    exact ⟨e, hi ▸ he, hid, hev.trans hversion⟩
  · intro e he
    obtain ⟨row, hrow, hle⟩ := hl.version e (hi ▸ he)
    obtain ⟨row', hrow', hversion⟩ := hmap e.id row hrow
    exact ⟨row', hrow', hversion ▸ hle⟩

/-- The call `i` commits a version that is new, and larger than those before. -/
theorem Ledger.commit {pc} (hl : s.Ledger) (hx : s.issuers[i]? = some x)
    (hpending : x.pc.isPending = true) (hpc : pc.isPending = false)
    (hissue : ∀ e, { x with pc := pc }.issue i = some e →
      e = { id := record.id, version := record.version, issuer := i })
    (hid : record.id = x.tokens.record.id)
    (hnew : ∀ row, s.tables.sessions.find record.id = some row →
      row.record.version < record.version)
    (hrow : ∃ row, tables.sessions.find record.id = some row ∧
      row.record.version = record.version)
    (hother : ∀ id, id ≠ record.id → tables.sessions.find id = s.tables.sessions.find id) :
    (s.commit i x pc record tables).Ledger := by
  have hlater : ∀ e ∈ s.issues, e.id = record.id → e.version < record.version := by
    intro e he heq
    obtain ⟨row, hfind, hle⟩ := hl.version e he
    exact hle.trans_lt (hnew row (heq ▸ hfind))
  have hfree : ∀ e ∈ s.issues, e.issuer ≠ i := by
    rintro e he rfl
    obtain ⟨y, hy, hypc, -⟩ := hl.issuer e he
    cases hx.symm.trans hy
    rw [hpending] at hypc
    cases hypc
  obtain ⟨row, hfind, hversion⟩ := hrow
  constructor
  · intro j y hy
    obtain ⟨-, rfl⟩ | ⟨-, hy⟩ := Pool.of_set hy
    · refine ⟨(hl.minted i x hx).access, fun previous now hpc' ↦ ?_⟩
      obtain rfl : pc = .refreshing previous now := hpc'
      cases hpc
    · exact hl.minted j y hy
  · simp only [Service.commit, List.forall_mem_append, List.forall_mem_singleton]
    refine ⟨fun e he ↦ ?_, _, Pool.set_self hx _, hpc, hid⟩
    obtain ⟨y, hy, hypc, heid⟩ := hl.issuer e he
    exact ⟨y, Pool.set_of_ne hy (hfree e he) _, hypc, heid⟩
  · intro j y hy e he
    obtain ⟨rfl, rfl⟩ | ⟨-, hy⟩ := Pool.of_set hy
    · exact List.mem_append_right _ (List.mem_singleton.mpr (hissue e he))
    · exact List.mem_append_left _ (hl.issued j y hy e he)
  · simp only [Service.commit, List.forall_mem_append, List.forall_mem_singleton]
    exact ⟨fun e he ↦ ⟨hl.unique e he, fun heq hv ↦ absurd hv (hlater e he heq).ne⟩,
      fun e he heq hv ↦ absurd hv.symm (hlater e he heq.symm).ne, fun _ _ ↦ trivial⟩
  · simp only [Service.commit, List.forall_mem_append, List.forall_mem_singleton]
    exact ⟨fun e he ↦ ⟨hl.once e he, fun heq ↦ absurd heq (hfree e he)⟩,
      fun e he heq ↦ absurd heq.symm (hfree e he), fun _ ↦ trivial⟩
  · intro id row' hrow'
    by_cases heq : id = record.id
    · subst heq
      cases hfind.symm.trans hrow'
      exact ⟨_, List.mem_append_right _ (List.mem_singleton.mpr rfl), rfl, hversion.symm⟩
    · obtain ⟨e, he, hev⟩ := hl.row id row' ((hother id heq) ▸ hrow')
      exact ⟨e, List.mem_append_left _ he, hev⟩
  · simp only [Service.commit, List.forall_mem_append, List.forall_mem_singleton]
    refine ⟨fun e he ↦ ?_, row, hfind, hversion.ge⟩
    by_cases heq : e.id = record.id
    · exact ⟨row, heq ▸ hfind, (hlater e he heq).le.trans_eq hversion.symm⟩
    · obtain ⟨row', hrow', hle⟩ := hl.version e he
      exact ⟨row', (hother e.id heq).trans hrow', hle⟩

theorem Ledger.commits (hl : s.Ledger) (h : Commit sha256 s s') : s'.Ledger := by
  cases h with
  | @inserted i x sessions hx hpc hs =>
    obtain ⟨hnone, -⟩ := Table.insert_eq_some hs
    have hfind := Table.find_insert hs
    refine hl.commit hx (by rw [hpc]; rfl) rfl (fun e he ↦ ?_) rfl (fun row hrow ↦ ?_)
      ⟨_, (hfind _).trans (if_pos rfl), rfl⟩ fun id hid ↦ (hfind id).trans (if_neg hid.symm)
    · exact (Option.some_inj.mp he).symm
    · cases hnone.symm.trans hrow
  | @rotated i x previous now next tables record hx hpc hr =>
    cases hr with
    | @exchanged row accessTTL idleTTL consumed sessions hrow hvalid hactive hrefresh haccess hidle
        hprevious hnext hnew hc hs =>
      have hid : row.record.id = previous.id := show row.id = _ from Table.key_eq_of_find hrow
      have hlt : row.record.version < row.record.version + 1 := by omega
      refine hl.commit hx (by rw [hpc]; rfl) rfl (fun e he ↦ ?_) ?_ (fun row' hrow' ↦ ?_) ?_
        fun id hne ↦ ?_
      · exact (Option.some_inj.mp he).symm
      · exact hid.trans ((hl.minted i x hx).previous previous now hpc)
      · have hrow'' : s.tables.sessions.find row.record.id = some row' := hrow'
        rw [hid, hrow] at hrow''
        cases hrow''
        exact hlt
      · refine ⟨row.rotated now accessTTL idleTTL next, ?_, rfl⟩
        show sessions.find row.record.id = _
        rw [hs, hid, hrow, Option.map_some, if_pos hid]
      · have hne' : id ≠ row.record.id := hne
        show sessions.find id = _
        rw [hs]
        cases hold : s.tables.sessions.find id with
        | none => rfl
        | some r =>
          have hr : r.id = id := Table.key_eq_of_find hold
          rw [Option.map_some, if_neg fun heq ↦ hne' (hr.symm.trans (heq.trans hid.symm))]

theorem ledger (h : Reach (step lifetimes sha256) ok {} s) : s.Ledger := by
  have hinit : Ledger {} := ⟨by simp, by simp, by simp, by simp, by simp, nofun, by simp⟩
  exact h.invariant (P := Ledger) hinit fun s a s' _ hl _ hstep ↦
    (step_change hstep).commits.elim hl.calm hl.commits

/-! ## What a run keeps -/

/-- What every step keeps: the versions that were committed and who minted their tokens. -/
structure Grows (s s' : Service) : Prop where
  issues : ∀ e ∈ s.issues, e ∈ s'.issues
  issuers : ∀ (i : Nat) (x : Issuer), s.issuers[i]? = some x →
    ∃ x', s'.issuers[i]? = some x' ∧ x'.tokens = x.tokens

theorem Grows.refl (s : Service) : Grows s s :=
  ⟨fun _ h ↦ h, fun _ x hx ↦ ⟨x, hx, rfl⟩⟩

theorem Grows.trans {s₁ s₂ s₃} (h : Grows s₁ s₂) (h' : Grows s₂ s₃) : Grows s₁ s₃ := by
  refine ⟨fun e he ↦ h'.issues e (h.issues e he), fun i x hx ↦ ?_⟩
  obtain ⟨x', hx', htokens⟩ := h.issuers i x hx
  obtain ⟨x'', hx'', htokens'⟩ := h'.issuers i x' hx'
  exact ⟨x'', hx'', htokens'.trans htokens⟩

theorem commit_grows (hx : s.issuers[i]? = some x) (pc : IssuerPc)
    (record : Record) (tables : SessionTables) : Grows s (s.commit i x pc record tables) := by
  refine ⟨fun e he ↦ List.mem_append_left _ he, fun j y hy ↦ ?_⟩
  by_cases hij : j = i
  · subst hij
    cases hx.symm.trans hy
    exact ⟨_, Pool.set_self hx _, rfl⟩
  · exact ⟨y, Pool.set_of_ne hy hij _, rfl⟩

theorem Change.grows (h : Change sha256 s s') : Grows s s' := by
  obtain h | h := h.commits
  · refine ⟨fun e he ↦ h.issues ▸ he, fun i x hx ↦ ?_⟩
    obtain ⟨x', hx', htokens, -⟩ := h.moves.kept hx
    exact ⟨x', hx', htokens⟩
  · cases h with
    | inserted hx | rotated hx => exact commit_grows hx _ _ _

/-- A row only gets later versions, and stays revoked. -/
def Advances (tables tables' : SessionTables) : Prop :=
  ∀ id row, tables.sessions.find id = some row → ∃ row', tables'.sessions.find id = some row' ∧
    row.record.version ≤ row'.record.version ∧
    (row.record.revokedAt.isSome → row'.record.revokedAt.isSome)

theorem Advances.refl (tables : SessionTables) : Advances tables tables :=
  fun _ row hrow ↦ ⟨row, hrow, le_rfl, fun h ↦ h⟩

theorem Advances.trans {t₁ t₂ t₃} (h : Advances t₁ t₂) (h' : Advances t₂ t₃) :
    Advances t₁ t₃ := by
  intro id row hrow
  obtain ⟨row', hrow', hle, hrevoked⟩ := h id row hrow
  obtain ⟨row'', hrow'', hle', hrevoked'⟩ := h' id row' hrow'
  exact ⟨row'', hrow'', hle.trans hle', fun h ↦ hrevoked' (hrevoked h)⟩

theorem Revoked.advances (h : Revoked tables tables') :
    Advances tables tables' := by
  intro id row hrow
  obtain ⟨g, hfind, hg⟩ := h.find id
  exact ⟨g row, by rw [hfind, hrow]; rfl, (hg row).1.ge, (hg row).2⟩

theorem Commit.advances (h : Commit sha256 s s') : Advances s.tables s'.tables := by
  cases h with
  | @inserted i x sessions hx hpc hs =>
    intro id row hrow
    refine ⟨row, ?_, le_rfl, fun h ↦ h⟩
    show sessions.find id = _
    rw [Table.find_insert hs, if_neg]
    · exact hrow
    · rintro rfl
      cases (Table.insert_eq_some hs).1.symm.trans hrow
  | rotated hx hpc hr =>
    cases hr with
    | exchanged _ _ _ _ _ _ _ _ _ _ hs =>
      intro id row hrow
      refine ⟨_, (hs id).trans (congrArg (Option.map _) hrow), ?_⟩
      simp only
      split
      · exact ⟨Int.le_of_lt (Int.lt_succ _), fun h ↦ h⟩
      · exact ⟨le_rfl, fun h ↦ h⟩

theorem Change.advances (h : Change sha256 s s') : Advances s.tables s'.tables := by
  cases h with
  | committed h => exact h.advances
  | ended _ ht | revoked ht | reader _ _ ht => exact ht.advances
  | _ => exact .refl _

/-! ## The entries of Redis -/

/-- The call that committed a version of a session has minted such tokens. -/
def Issued (s : Service) (id : SessionID) (version : Int) (P : Tokens → Prop) : Prop :=
  ∃ e ∈ s.issues, e.id = id ∧ e.version = version ∧
    ∃ x, s.issuers[e.issuer]? = some x ∧ P x.tokens

theorem Issued.grows {version P} (hi : s.Issued id version P) (h : Grows s s') :
    s'.Issued id version P := by
  obtain ⟨e, he, hid, hversion, x, hx, hp⟩ := hi
  obtain ⟨x', hx', htokens⟩ := h.issuers _ x hx
  exact ⟨e, h.issues e he, hid, hversion, x', hx', htokens ▸ hp⟩

/-- An entry was put by the call that committed its version. -/
def Backed (sha256 : Bytes → Digest) (s : Service) (id : SessionID) (access : Access) : Prop :=
  s.Issued id access.version fun tokens ↦ sha256 tokens.access.value = access.digest

theorem putScript_cases (entry : Option Access) (new : Access) :
    (putScript entry new).1 = entry ∨ (putScript entry new).1 = some new := by
  cases entry with
  | none => exact .inr rfl
  | some =>
    simp only [putScript]
    split_ifs
    · exact .inl rfl
    · exact .inl rfl
    · exact .inr rfl

/-- Every command and every entry was put by the call that committed its version. -/
structure Cached (sha256 : Bytes → Digest) (s : Service) : Prop where
  commands : ∀ c ∈ s.commands, Backed sha256 s c.id c.access
  redis : ∀ id access, s.redis id = some access → Backed sha256 s id access

theorem Cached.of_grows (hc : Cached sha256 s) (h : Grows s s')
    (hcommands : s'.commands = s.commands) (hredis : s'.redis = s.redis) : Cached sha256 s' :=
  ⟨fun c hmem ↦ (hc.commands c (hcommands ▸ hmem)).grows h,
    fun id access he ↦ (hc.redis id access (hredis ▸ he)).grows h⟩

theorem mem_put {c} (h : c ∈ put sha256 tokens record now) : c.id = record.id ∧
      c.access.version = record.version ∧ c.access.digest = sha256 tokens.access.value := by
  rw [put] at h
  split at h
  · obtain rfl := List.mem_singleton.mp h
    exact ⟨rfl, rfl, rfl⟩
  · cases h

theorem Cached.step (hc : Cached sha256 s) (hl : s.Ledger) (h : Change sha256 s s') :
    Cached sha256 s' := by
  have hgrows := h.grows
  cases h with
  | @published i x pc record now hx hpc =>
    refine ⟨fun c hmem ↦ ?_, fun id access he ↦ (hc.redis id access he).grows hgrows⟩
    obtain hmem | hmem := List.mem_append.mp hmem
    · exact (hc.commands c hmem).grows hgrows
    · obtain ⟨hid, hversion, hdigest⟩ := mem_put hmem
      have hissue : x.issue i =
          some { id := record.id, version := record.version, issuer := i } := by
        obtain ⟨hpc, -, hsame, hversion, -⟩ | ⟨hpc, -⟩ := hpc
        · rw [Issuer.issue, hpc, hsame, hversion]
        · rw [Issuer.issue, hpc]
      have hbacked : Backed sha256 s c.id c.access :=
        ⟨_, hl.issued i x hx _ hissue, hid.symm, hversion.symm, x, hx, hdigest.symm⟩
      exact hbacked.grows hgrows
  | @delivered command hmem =>
    refine ⟨fun c hc' ↦ (hc.commands c hc').grows hgrows, fun id access he ↦ ?_⟩
    simp only [Function.update_apply] at he
    split at he
    · rename_i hid
      subst hid
      obtain hscript | hscript := putScript_cases (s.redis command.id) command.access
      · exact (hc.redis _ access (hscript ▸ he)).grows hgrows
      · rw [hscript] at he
        cases he
        exact (hc.commands command hmem).grows hgrows
    · exact (hc.redis id access he).grows hgrows
  | evicted =>
    refine ⟨fun c hc' ↦ (hc.commands c hc').grows hgrows, fun id access he ↦ ?_⟩
    simp only [Function.update_apply] at he
    split at he
    · cases he
    · exact (hc.redis id access he).grows hgrows
  | committed h => cases h <;> exact hc.of_grows hgrows rfl rfl
  | ticked | entered | activating | ended | revoked | called | reader =>
    exact hc.of_grows hgrows rfl rfl

theorem cached (h : Reach (step lifetimes sha256) ok {} s) : Cached sha256 s := by
  exact h.invariant (P := Cached sha256) ⟨by simp, fun _ _ h ↦ by cases h⟩
    fun s a s' hreach hc _ hstep ↦ hc.step (ledger hreach) (step_change hstep)

/-! ## The calls that authenticate -/

/-- `token` was minted by the call that committed this version of its session, as far as digests
can tell. -/
def Matches (sha256 : Bytes → Digest) (s : Service) (token : Token) (version : Int) : Prop :=
  s.Issued token.id version fun tokens ↦
    tokens.access.id = token.id ∧ sha256 tokens.access.value = sha256 token.value

theorem Backed.matches (hb : Backed sha256 s token.id access)
    (hl : s.Ledger) (hdigest : sha256 token.value = access.digest) :
    Matches sha256 s token access.version := by
  obtain ⟨e, he, hid, hversion, x, hx, hx'⟩ := hb
  obtain ⟨y, hy, -, heid⟩ := hl.issuer e he
  cases hx.symm.trans hy
  refine ⟨e, he, hid, hversion, x, hx, ?_, hx'.trans hdigest.symm⟩
  rw [(hl.minted _ x hx).access, ← heid, hid]

/-- What a call that authenticates has at hand. -/
structure Trusted (sha256 : Bytes → Digest) (s : Service) (x : Reader) : Prop where
  read : ∀ record access, x.pc = .read record access → Backed sha256 s x.token.id access
  accepted : ∀ record, x.pc.accepted = some record →
    record.revokedAt = none ∧ Matches sha256 s x.token record.version

/-- A call that has read nothing and accepted nothing. -/
theorem Trusted.of_none {x} (hread : ∀ record access, x.pc ≠ .read record access)
    (haccepted : x.pc.accepted = none) : Trusted sha256 s x :=
  ⟨fun record access hpc ↦ absurd hpc (hread record access),
    fun _ hpc ↦ (nomatch haccepted.symm.trans hpc)⟩

theorem Trusted.grows {x} (ht : Trusted sha256 s x) (h : Grows s s') :
    Trusted sha256 s' x :=
  ⟨fun record access hpc ↦ (ht.read record access hpc).grows h,
    fun record hpc ↦ ⟨(ht.accepted record hpc).1, (ht.accepted record hpc).2.grows h⟩⟩

theorem ReaderStep.trusted {x pc} (h : ReaderStep sha256 s x pc)
    (ht : Trusted sha256 s x) (hl : s.Ledger) (hc : Cached sha256 s) :
    Trusted sha256 s { x with pc := pc } := by
  cases h with
  | found | failed => exact .of_none (by simp) rfl
  | read hpc hget =>
    refine ⟨fun record access h ↦ ?_, nofun⟩
    cases h
    exact hc.redis _ _ hget
  | @succeeded record access hpc hcheck =>
    refine ⟨by simp, fun record' h ↦ ?_⟩
    cases h
    obtain ⟨hactive, -, -, hversion, -, hdigest⟩ := hcheck
    exact ⟨hactive.2.2.2.1, hversion ▸ (ht.read record access hpc).matches hl hdigest⟩
  | @revoked record hpc =>
    refine ⟨by simp, fun record' h ↦ ?_⟩
    cases h
    exact ht.accepted record (by rw [hpc]; rfl)

/-- **What a step does to the calls that authenticate.** -/
inductive Reads (sha256 : Bytes → Digest) (s : Service) : List Reader → Prop
  | same : Reads sha256 s s.readers
  | called {purpose token} :
      Reads sha256 s (s.readers ++ [{ purpose := purpose, token := token, pc := .started }])
  | moved {r x pc} (hx : s.readers[r]? = some x)
      (hpc : ReaderStep sha256 s x pc) : Reads sha256 s (s.readers.set r { x with pc := pc })

theorem Change.reads (h : Change sha256 s s') : Reads sha256 s s'.readers := by
  cases h with
  | called => exact .called
  | reader hx hpc => exact .moved hx hpc
  | committed h => cases h <;> exact .same
  | _ => exact .same

theorem trusted (h : Reach (step lifetimes sha256) ok {} s) :
    ∀ (r : Nat) (x : Reader), s.readers[r]? = some x → Trusted sha256 s x := by
  refine h.invariant (fun r x hx ↦ by cases hx) fun s a s' hreach ht _ hstep r x hx ↦ ?_
  have hchange := step_change hstep
  have hgrows := hchange.grows
  have hreads := hchange.reads
  generalize s'.readers = readers at hreads hx
  cases hreads with
  | same => exact (ht r x hx).grows hgrows
  | called =>
    obtain ⟨-, rfl⟩ | hx := Pool.of_append hx
    · exact .of_none (by simp) rfl
    · exact (ht r x hx).grows hgrows
  | moved hy hpc =>
    obtain ⟨rfl, rfl⟩ | ⟨-, hx⟩ := Pool.of_set hx
    · exact (hpc.trusted (ht _ _ hy) (ledger hreach) (cached hreach)).grows hgrows
    · exact (ht r x hx).grows hgrows

/-! ## From one state to a later one -/

section Later

variable {ok : Service → Action → Prop} {b : Service}

theorem grows (h : Reach (step lifetimes sha256) ok b s) : Grows b s :=
  h.invariant (P := Grows b) (.refl b) fun _ _ _ _ hg _ hstep ↦
    hg.trans (step_change hstep).grows

theorem advances (h : Reach (step lifetimes sha256) ok b s) :
    Advances b.tables s.tables :=
  h.invariant (.refl _) fun _ _ _ _ ha _ hstep ↦
    ha.trans (step_change hstep).advances

theorem Change.clock_le (h : Change sha256 s s') : s.clock ≤ s'.clock := by
  cases h with
  | ticked h => exact h
  | committed h => cases h <;> exact le_rfl
  | _ => exact le_rfl

theorem now_mono (h : s.clock ≤ s'.clock) : s.now ≤ s'.now := by
  have hfloor (a b : Int) (hab : a ≤ b) : a - a % 1000000000 ≤ b - b % 1000000000 := by omega
  exact hfloor _ _ h

theorem find_eq_ok {tables : SessionTables} {id : SessionID} {record : Record}
    (h : tables.find id = .ok record) :
    ∃ row, tables.sessions.find id = some row ∧ row.record = record := by
  rw [SessionTables.find] at h
  generalize tables.sessions.find id = found at h ⊢
  cases found with
  | none => cases h
  | some row =>
    rw [SessionTables.scanRecord] at h
    split at h
    · cases h
      exact ⟨row, rfl, rfl⟩
    · cases h

/-- What a call that started after `b` was told about a session is not older than `b`. -/
def Since (b s : Service) : Prop :=
  ∀ (r : Nat) (x : Reader), b.readers.length ≤ r → s.readers[r]? = some x →
    ∀ record, x.pc.record = some record →
      ∀ row, b.tables.sessions.find x.token.id = some row →
        row.record.version ≤ record.version ∧
          (row.record.revokedAt.isSome → record.revokedAt.isSome)

theorem since (h : Reach (step lifetimes sha256) ok b s) : Since b s := by
  refine h.invariant (P := Since b) (fun r x hr hx ↦ ?_)
    fun s a s' hreach hs _ hstep r x hr hx record hrecord row hrow ↦ ?_
  · exact absurd (List.getElem?_eq_some_iff.mp hx).1 (not_lt.mpr hr)
  · have hreads := (step_change hstep).reads
    generalize s'.readers = readers at hreads hx
    cases hreads with
    | same => exact hs r x hr hx record hrecord row hrow
    | called =>
      obtain ⟨-, rfl⟩ | hx := Pool.of_append hx
      · cases hrecord
      · exact hs r x hr hx record hrecord row hrow
    | @moved j y pc hy hpc =>
      obtain ⟨rfl, rfl⟩ | ⟨-, hx⟩ := Pool.of_set hx
      · have hkeep (hrec : y.pc.record = some record) := hs r y hr hy record hrec row hrow
        cases hpc with
        | found hpc hfind =>
          -- the row that `Find` reads is a later state of the row of `b`
          cases hrecord
          obtain ⟨row', hrow', rfl⟩ := find_eq_ok hfind
          obtain ⟨row'', hrow'', hle⟩ := advances hreach y.token.id row hrow
          cases hrow'.symm.trans hrow''
          exact hle
        | read hpc | succeeded hpc | revoked hpc => exact hkeep (by rw [hpc]; exact hrecord)
        | failed => cases hrecord
      · exact hs r x hr hx record hrecord row hrow

/-- What a call has at hand after its `Find` in the state `b`. -/
structure FoundIn (b : Service) (token : Token) (x : Reader) : Prop where
  token_eq : x.token = token
  isStarted : x.pc ≠ .started
  record : ∀ record, x.pc.record = some record → b.tables.find token.id = .ok record
  accepted : ∀ record, x.pc.accepted = some record → b.now < record.expiresAt

theorem ReaderStep.foundIn {token x pc}
    (h : ReaderStep sha256 s x pc) (hf : FoundIn b token x) (hclock : b.clock ≤ s.clock) :
    FoundIn b token { x with pc := pc } := by
  cases h with
  | found hpc => exact absurd hpc hf.isStarted
  | read hpc =>
    exact ⟨hf.token_eq, by simp, fun record h ↦ hf.record record (by rw [hpc]; exact h),
      nofun⟩
  | succeeded hpc hcheck =>
    refine ⟨hf.token_eq, by simp, fun record h ↦ hf.record record (by rw [hpc]; exact h), ?_⟩
    intro record h
    cases h
    exact (now_mono hclock).trans_lt hcheck.1.2.2.2.2.2
  | revoked hpc =>
    exact ⟨hf.token_eq, by simp, fun record h ↦ hf.record record (by rw [hpc]; exact h),
      fun record h ↦ hf.accepted record (by rw [hpc]; exact h)⟩
  | failed => exact ⟨hf.token_eq, by simp, nofun, nofun⟩

theorem foundIn {token} {r : Nat} {s₀} (hclock : b.clock ≤ s₀.clock)
    (hf : ∃ x, s₀.readers[r]? = some x ∧ FoundIn b token x)
    (h : Reach (step lifetimes sha256) ok s₀ s) :
    ∃ x, s.readers[r]? = some x ∧ FoundIn b token x := by
  refine (h.invariant
    (P := fun s ↦ b.clock ≤ s.clock ∧ ∃ x, s.readers[r]? = some x ∧ FoundIn b token x)
    ⟨hclock, hf⟩ fun s a s' _ hs _ hstep ↦ ?_).2
  obtain ⟨hclock, x, hx, hf⟩ := hs
  have hchange := step_change hstep
  refine ⟨hclock.trans hchange.clock_le, ?_⟩
  have hreads := hchange.reads
  generalize s'.readers = readers at hreads
  cases hreads with
  | same => exact ⟨x, hx, hf⟩
  | called => exact ⟨x, Pool.append hx _, hf⟩
  | @moved j y pc hy hpc =>
    by_cases hrj : r = j
    · subst hrj
      cases hx.symm.trans hy
      exact ⟨_, Pool.set_self hx _, hpc.foundIn hf hclock⟩
    · exact ⟨x, Pool.set_of_ne hx hrj _, hf⟩

theorem find_foundIn {r : Nat} (h : b.step lifetimes sha256 (.find r) = some s) :
    ∃ x, s.readers[r]? = some x ∧ FoundIn b x.token x := by
  obtain ⟨x, hx, h⟩ := Option.bind_eq_some_iff.mp h
  simp only [read] at h
  split at h
  · split at h
    · rename_i record hfind
      cases h
      refine ⟨_, Pool.set_self hx _, rfl, by simp, fun record' h ↦ ?_, nofun⟩
      cases h
      exact hfind
    · cases h
      exact ⟨_, Pool.set_self hx _, rfl, by simp, nofun, nofun⟩
  · cases h

end Later

/-! ## The authority of a session -/

/-- The secrets that were minted are fresh: no two calls have minted the same access token. -/
def FreshTokens (s : Service) : Prop :=
  (s.issuers.map fun x ↦ x.tokens.access).Nodup
  deriving Decidable

/-- No token that was presented has the digest of another one that was minted. -/
def Collisionless (sha256 : Bytes → Digest) (s : Service) : Prop :=
  ∀ x ∈ s.readers, ∀ y ∈ s.issuers, sha256 y.tokens.access.value = sha256 x.token.value →
    y.tokens.access.value = x.token.value
  deriving Decidable

/-- `token` is the access token that was minted together with this version of its session. -/
def Owns (s : Service) (token : Token) (version : Int) : Prop :=
  ∃ e ∈ s.issues, e.id = token.id ∧ e.version = version ∧
    ∃ x, s.issuers[e.issuer]? = some x ∧ x.tokens.access = token

theorem Matches.owns {x} {version : Int} (hm : Matches sha256 s x.token version)
    (hsha : Collisionless sha256 s) (hx : x ∈ s.readers) : s.Owns x.token version := by
  obtain ⟨e, he, hid, hversion, y, hy, hyid, hdigest⟩ := hm
  have hvalue := hsha x hx y (List.mem_of_getElem? hy) hdigest
  refine ⟨e, he, hid, hversion, y, hy, ?_⟩
  generalize x.token = token at hyid hvalue ⊢
  generalize y.tokens.access = access at hyid hvalue ⊢
  cases token
  cases access
  exact (Token.mk.injEq ..).mpr ⟨hyid, hvalue⟩

theorem Owns.grows {version : Int} (ho : s.Owns token version) (h : Grows s s') :
    s'.Owns token version :=
  Issued.grows (P := fun tokens ↦ tokens.access = token) ho h

/-- A version of a session has one access token, at every time after it was committed. -/
theorem Owns.of_later {version : Int} (ho : s'.Owns token version)
    (hl : s'.Ledger) (hg : Grows s s') {e} (he : e ∈ s.issues) (hid : e.id = token.id)
    (hversion : e.version = version) (hs : s.Ledger) : s.Owns token version := by
  obtain ⟨e', he', hid', hversion', x', hx', htoken⟩ := ho
  have hsame := hl.unique e (hg.issues e he) e' he' (hid.trans hid'.symm)
    (hversion.trans hversion'.symm)
  obtain ⟨x, hx, -, -⟩ := hs.issuer e he
  obtain ⟨x'', hx'', htokens⟩ := hg.issuers _ x hx
  rw [hsame] at hx''
  cases hx'.symm.trans hx''
  exact ⟨e, he, hid, hversion, x, hx, by rw [← htokens, htoken]⟩

/-- A token that was minted for one version is not that of another. -/
theorem Owns.version_eq {v v' : Int} (ho : s.Owns token v) (ho' : s.Owns token v')
    (hl : s.Ledger) (hfresh : s.FreshTokens) : v = v' := by
  obtain ⟨e, he, -, rfl, x, hx, hxt⟩ := ho
  obtain ⟨e', he', -, rfl, x', hx', hxt'⟩ := ho'
  have hmap {i : Nat} {y : Issuer} (hy : s.issuers[i]? = some y) :
      (s.issuers.map fun x ↦ x.tokens.access)[i]? = some y.tokens.access := by
    rw [List.getElem?_map, hy]
    rfl
  have hsame : e.issuer = e'.issuer := by
    refine (List.getElem?_inj ?_ hfresh).mp ((hmap hx).trans ?_)
    · rw [List.length_map]
      exact (List.getElem?_eq_some_iff.mp hx).1
    · rw [hmap hx', hxt, hxt']
  rw [hl.once e he e' he' hsame]

/-- **Session authority.**  Consider a run up to `s`, in which the minted secrets are fresh and the
digests of the tokens do not collide.

If the call `r` has authenticated, then in the state of its `Find` the row of its session was not
revoked and not expired, and the presented token was the access token minted together with the
version of the row.  So a token whose version had been replaced in a state `b` is not accepted by
any call that started after `b`, and no token of a session that was revoked in `b` is. -/
theorem session_authority (lifetimes : Lifetimes) (sha256 : Bytes → Digest) (s : Service)
    (hfresh : s.FreshTokens) (hsha : Collisionless sha256 s) :
    (∀ b b' r x record, Reach (step lifetimes sha256) (fun _ _ ↦ True) {} b →
      b.step lifetimes sha256 (.find r) = some b' →
      Reach (step lifetimes sha256) (fun _ _ ↦ True) b' s →
      s.readers[r]? = some x → x.pc.accepted = some record →
      ∃ row, b.tables.sessions.find x.token.id = some row ∧ row.record = record ∧
        row.record.revokedAt = none ∧ b.now < row.record.expiresAt ∧
        b.Owns x.token row.record.version) ∧
    (∀ b r x record token version row,
      Reach (step lifetimes sha256) (fun _ _ ↦ True) {} b →
      b.Owns token version → b.tables.sessions.find token.id = some row →
      version < row.record.version → b.readers.length ≤ r →
      Reach (step lifetimes sha256) (fun _ _ ↦ True) b s →
      s.readers[r]? = some x → x.pc.accepted = some record → x.token ≠ token) ∧
    ∀ b r x record row, Reach (step lifetimes sha256) (fun _ _ ↦ True) {} b →
      row ∈ b.tables.sessions.rows → row.record.revokedAt.isSome → b.readers.length ≤ r →
      Reach (step lifetimes sha256) (fun _ _ ↦ True) b s →
      s.readers[r]? = some x → x.pc.accepted = some record → x.token.id ≠ row.id := by
  refine ⟨fun b b' r x record hb hfind hlater hx hrecord ↦ ?_,
    fun b r x record token version row hb howns hrow hlt hr hlater hx hrecord htoken ↦ ?_,
    fun b r x record row hb hrow hrevoked hr hlater hx hrecord hid ↦ ?_⟩
  · have hreach := (hb.next trivial hfind).trans hlater
    have haccepted := (trusted hreach r x hx).accepted record hrecord
    have howns := haccepted.2.owns hsha (List.mem_of_getElem? hx)
    obtain ⟨x₀, hx₀, hf₀⟩ := find_foundIn hfind
    obtain ⟨x', hx', hf⟩ := foundIn (step_change hfind).clock_le ⟨x₀, hx₀, hf₀⟩ hlater
    cases hx.symm.trans hx'
    have hread := hf.record record (ReaderPc.record_of_accepted hrecord)
    rw [← hf.token_eq] at hread
    obtain ⟨row, hrow, rfl⟩ := find_eq_ok hread
    obtain ⟨e, he, heid, heversion⟩ := (ledger hb).row _ row hrow
    refine ⟨row, hrow, rfl, haccepted.1, hf.accepted _ hrecord, ?_⟩
    exact howns.of_later (ledger hreach) (grows ((Reach.next .start trivial hfind).trans
      hlater)) he heid heversion (ledger hb)
  · have hreach := hb.trans hlater
    have haccepted := (trusted hreach r x hx).accepted record hrecord
    have howns' := haccepted.2.owns hsha (List.mem_of_getElem? hx)
    rw [htoken] at howns'
    have hsame : version = record.version :=
      Owns.version_eq (howns.grows (grows hlater)) howns' (ledger hreach) hfresh
    have hle := (since hlater r x hr hx record (ReaderPc.record_of_accepted hrecord) row
      (htoken ▸ hrow)).1
    exact absurd (hsame ▸ hlt) hle.not_gt
  · have hreach := hb.trans hlater
    have haccepted := (trusted hreach r x hx).accepted record hrecord
    have hsome := (since hlater r x hr hx record (ReaderPc.record_of_accepted hrecord) row
      (hid ▸ Table.find_of_mem hrow)).2 hrevoked
    rw [haccepted.1] at hsome
    cases hsome

/-- A digest for examples: the secret, as far as it fits. -/
def sampleSha (value : Bytes) : Digest :=
  List.Vector.ofFn fun i ↦ (value.drop 37).getD i 0

def sampleLifetimes : Lifetimes where
  accessTTL := 60 * second
  idleTTL := 600 * second
  absoluteTTL := 6000 * second

def sampleSecrets : Bytes := List.replicate 32 1 ++ List.replicate 32 2

/-- A session is started and its access token presented. -/
theorem session_authority_sample :
    ∃ (s b : Service) (r : Nat) (x : Reader) (record : Record),
      Reach (step sampleLifetimes sampleSha) (fun _ _ ↦ True) {} b ∧
      s.readers[r]? = some x ∧ x.pc.accepted = some record ∧ b.Owns x.token record.version := by
  have hrun : ((replay (step sampleLifetimes sampleSha) (fun _ _ ↦ True) {}
      [fun _ ↦ .tick (100 * second), fun _ ↦ .prepare (List.Vector.replicate 16 2)
          (List.Vector.replicate 16 1) sampleSecrets, fun _ ↦ .create 0, fun _ ↦ .activate 0,
        fun _ ↦ .publish 0, fun _ ↦ .deliver 0, fun s ↦ .authenticate .authenticate
          (s.issuers.flatMap fun x ↦ x.tokens.access.value)]).any fun b ↦
      (b.step sampleLifetimes sampleSha (.find 0)).any fun b' ↦
        (replay (step sampleLifetimes sampleSha) (fun _ _ ↦ True) b'
          [fun _ ↦ .get 0, fun _ ↦ .check 0]).any fun s ↦
          (s.readers[0]?).any fun x ↦ x.pc.accepted.isSome ∧ s.FreshTokens ∧
            Collisionless sampleSha s) = true := by decide +kernel
  obtain ⟨b, hb, hrun⟩ := Reach.exists_of_replay hrun
  obtain ⟨b', hfind, hrun⟩ := (Option.any_eq_true _ _).mp hrun
  obtain ⟨s, hlater, hrun⟩ := Reach.exists_of_replay hrun
  obtain ⟨x, hx, htest⟩ := (Option.any_eq_true _ _).mp hrun
  obtain ⟨haccepted, hfresh, hsha⟩ := of_decide_eq_true htest
  obtain ⟨record, hrecord⟩ := Option.isSome_iff_exists.mp haccepted
  obtain ⟨row, -, rfl, -, -, howns⟩ := (session_authority sampleLifetimes sampleSha s hfresh hsha).1
    b b' 0 x record hb hfind hlater hx hrecord
  exact ⟨s, b, 0, x, _, hb, hx, hrecord, howns⟩

end Service

end MarketMesh.Auth
