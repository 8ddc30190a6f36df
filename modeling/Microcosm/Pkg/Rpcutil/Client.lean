import Mathlib.Data.List.AList
import Mathlib.Data.List.Rotate
import Microcosm.Library.Loop
import Microcosm.Library.Map
import Microcosm.Library.Transition
import Microcosm.Library.Word

/-!
# Failover RPC clients

`FailoverRPCClients` of `pkg/rpcutil/client.go`: `UpdateClients`, `GetLeaderClient`, and
`NewFailoverRPCClients` with its `init`. Each of them holds `clientsLock` from start to end,
so each is one step; a run is any sequence of them.

Addresses are lists of characters, the key type of `clients`. The dialer's answer to each
dial is chosen by the environment: it is a function of the number of dials made before and of
the address, so that every pattern of successes and failures is one dialer. Two ghost fields
follow the connections: `dials` logs every dial, its address and whether it succeeded, and a
connection is named by the index of its dial; `closed` lists the connections closed, in
order. The loop that picks a leader takes the first key of a map iteration, whose order Go
leaves open: it is the first key of the keys rotated by a number the environment chooses.
The other map iterations (building `notFound`, closing) run in the order of the `AList`, which
only orders the log of closings.
-/

namespace Microcosm

namespace Rpcutil

/-- `strings.Replace(s, old, new, 1)` for a non-empty `old`: the first occurrence of `old` is
replaced by `new`. -/
def replaceOnce (old new : List Char) : List Char → List Char
  | [] => []
  | c :: s =>
      if old.isPrefixOf (c :: s) then new ++ (c :: s).drop old.length
      else c :: replaceOnce old new s

/-- `trimURL` of `UpdateClients`. -/
def trimURL (url : List Char) : List Char :=
  replaceOnce "http://".toList [] url

/-- `clientHolder`; `conn` names the connection by its dial. -/
structure ClientHolder (T : Type) where
  conn : Nat
  client : T
  deriving DecidableEq, Repr

/-- `FailoverRPCClients`, with the ghosts `dials` and `closed`. -/
structure FailoverRPCClients (T : Type) where
  leader : List Char
  clients : AList (fun _ : List Char => ClientHolder T)
  dials : List (List Char × Bool)
  closed : List Nat

/-- The panics of the calls. -/
inductive Panic
  /-- "leader client not found". -/
  | leaderClientNotFound (leader : List Char)
  /-- `c.clients[k]` is nil in the closing loop of `UpdateClients`: a nil dereference. -/
  | nilClientHolder (addr : List Char)
  deriving DecidableEq, Repr

/-- `ErrGrpcBuildConn` of `init`: no URL could be dialed. -/
inductive ClientError
  | errGrpcBuildConn (urls : List (List Char))
  deriving DecidableEq, Repr

namespace FailoverRPCClients

variable {T : Type} (dialer : Nat → List Char → Option T)

/-- The clients before `init`: none, and the leader "". -/
def empty : FailoverRPCClients T :=
  ⟨[], ∅, [], []⟩

/-- The dial of `UpdateClients` for an address that has no client yet. -/
def dialNew (c : FailoverRPCClients T) (addr : List Char) : FailoverRPCClients T :=
  match c.clients.lookup addr with
  | some _ => c
  | none =>
      match dialer c.dials.length addr with
      | none => { c with dials := c.dials ++ [(addr, false)] }
      | some cli =>
          { c with clients := c.clients.insert addr ⟨c.dials.length, cli⟩,
                   dials := c.dials ++ [(addr, true)] }

/-- One URL of the first loop of `UpdateClients`: its address leaves `notFound`, and it is
dialed if it has no client. -/
def dialIfNew (st : FailoverRPCClients T × List (List Char)) (url : List Char) :
    FailoverRPCClients T × List (List Char) :=
  (dialNew dialer st.1 (trimURL url), st.2.erase (trimURL url))

/-- One address of the closing loop: its connection is closed (an error of `Close` is only
logged) and its client deleted. -/
def closeRedundant (k : List Char) (c : FailoverRPCClients T) :
    FailoverRPCClients T × Except Panic Unit :=
  match c.clients.lookup k with
  | none => (c, .error (.nilClientHolder k))
  | some h => ({ c with clients := c.clients.erase k, closed := c.closed ++ [h.conn] }, .ok ())

/-- The leader of `UpdateClients`: the trimmed `leaderURL` if it has a client, otherwise the
first key met by a map iteration (`start` picks it), or "" when there is none. -/
def electLeader (c : FailoverRPCClients T) (leaderURL : List Char) (start : Nat) :
    FailoverRPCClients T :=
  match c.clients.lookup (trimURL leaderURL) with
  | some _ => { c with leader := trimURL leaderURL }
  | none => { c with leader := (c.clients.keys.rotate start).headD [] }

/-- `UpdateClients`. -/
def updateClients (c : FailoverRPCClients T) (urls : List (List Char)) (leaderURL : List Char)
    (start : Nat) : Except Panic (FailoverRPCClients T) :=
  let st := urls.foldl (dialIfNew dialer) (c, c.clients.keys)
  match Loop.forEach closeRedundant st.2 st.1 with
  | (c', .ok ()) => .ok (electLeader c' leaderURL start)
  | (_, .error e) => .error e

/-- `GetLeaderClient`: the zero value (`none`) when the leader is "". -/
def getLeaderClient (c : FailoverRPCClients T) : Except Panic (Option T) :=
  if c.leader = [] then .ok none
  else
    match c.clients.lookup c.leader with
    | none => .error (.leaderClientNotFound c.leader)
    | some h => .ok (some h.client)

/-- `NewFailoverRPCClients` with `init`: an update with the leader "" from no clients, which
fails when it leaves none. -/
def newFailoverRPCClients (urls : List (List Char)) (start : Nat) :
    Except Panic (FailoverRPCClients T × Except ClientError Unit) :=
  (updateClients dialer empty urls [] start).map fun c =>
    (c, if c.clients.entries = [] then .error (.errGrpcBuildConn urls) else .ok ())

end FailoverRPCClients

open FailoverRPCClients

/-- A call on the clients, with the environment's choice of the leader's fallback. -/
inductive Action
  | updateClients (urls : List (List Char)) (leaderURL : List Char) (start : Nat)
  | getLeaderClient
  deriving DecidableEq, Repr

/-- One call. -/
def step {T : Type} (dialer : Nat → List Char → Option T) (c : FailoverRPCClients T) :
    Action → Except Panic (FailoverRPCClients T)
  | .updateClients urls leaderURL start => updateClients dialer c urls leaderURL start
  | .getLeaderClient => (getLeaderClient c).map fun _ => c

/-- Every call may come at any time. -/
def allowed {T : Type} (_ : FailoverRPCClients T) (_ : Action) : Bool :=
  true

namespace FailoverRPCClients

variable {T : Type} {dialer : Nat → List Char → Option T}

/-! ## One call of `UpdateClients` -/

/-- What the dial of one address can do: nothing, for an address with a client; log a failed
dial; or log a successful one and hold its connection under the address. -/
theorem dialNew_cases (dialer : Nat → List Char → Option T) (c : FailoverRPCClients T)
    (addr : List Char) :
    (addr ∈ c.clients ∧ dialNew dialer c addr = c) ∨
    (addr ∉ c.clients ∧ dialer c.dials.length addr = none ∧
      dialNew dialer c addr = { c with dials := c.dials ++ [(addr, false)] }) ∨
    (∃ cli, addr ∉ c.clients ∧ dialer c.dials.length addr = some cli ∧
      dialNew dialer c addr = { c with clients := c.clients.insert addr ⟨c.dials.length, cli⟩,
                                       dials := c.dials ++ [(addr, true)] }) := by
  cases hk : c.clients.lookup addr with
  | some _ => exact .inl ⟨Map.mem_of_lookup_eq_some hk, by simp [dialNew, hk]⟩
  | none =>
      have hna : addr ∉ c.clients := AList.lookup_eq_none.1 hk
      cases hd : dialer c.dials.length addr with
      | none => exact .inr (.inl ⟨hna, rfl, by simp [dialNew, hk, hd]⟩)
      | some cli => exact .inr (.inr ⟨cli, hna, rfl, by simp [dialNew, hk, hd]⟩)

/-- The first loop of `UpdateClients`: its dials are logged after the earlier ones and are
dials of the addresses it is given; an address ends with a client if it had one, which it
keeps, or if a dial of it succeeded; and nothing is closed. -/
theorem foldl_dialNew (dialer : Nat → List Char → Option T) (L : List (List Char))
    (c : FailoverRPCClients T) :
    ∃ new, (L.foldl (dialNew dialer) c).dials = c.dials ++ new ∧ (∀ p ∈ new, p.1 ∈ L) ∧
      (∀ k, k ∈ (L.foldl (dialNew dialer) c).clients ↔
        k ∈ c.clients ∨ (k, true) ∈ new) ∧
      (∀ k h, c.clients.lookup k = some h →
        (L.foldl (dialNew dialer) c).clients.lookup k = some h) ∧
      (L.foldl (dialNew dialer) c).closed = c.closed := by
  induction L generalizing c with
  | nil => exact ⟨[], by simp, by simp, fun k => by simp, fun _ _ h => h, rfl⟩
  | cons addr L ih =>
      rw [List.foldl_cons]
      rcases dialNew_cases dialer c addr with ⟨-, hc⟩ | ⟨-, -, hc⟩ | ⟨cli, hna, -, hc⟩
      · -- the address has a client: nothing happens
        rw [hc]
        obtain ⟨new, hdials, hnew, hkeys, hkeep, hclosed⟩ := ih c
        exact ⟨new, hdials, fun p hp => List.mem_cons_of_mem _ (hnew p hp), hkeys, hkeep,
          hclosed⟩
      · -- a failed dial is only logged
        rw [hc]
        obtain ⟨new, hdials, hnew, hkeys, hkeep, hclosed⟩ :=
          ih { c with dials := c.dials ++ [(addr, false)] }
        refine ⟨(addr, false) :: new, by simpa using hdials, ?_, fun k => ?_, hkeep, hclosed⟩
        · rintro p (_ | ⟨_, hp⟩)
          · exact List.mem_cons_self
          · exact List.mem_cons_of_mem _ (hnew p hp)
        · rw [hkeys k]
          simp
      · -- a successful dial holds the new connection under the address
        rw [hc]
        obtain ⟨new, hdials, hnew, hkeys, hkeep, hclosed⟩ := ih
          { c with clients := c.clients.insert addr ⟨c.dials.length, cli⟩,
                   dials := c.dials ++ [(addr, true)] }
        refine ⟨(addr, true) :: new, by simpa using hdials, ?_, fun k => ?_, fun k h hk => ?_,
          hclosed⟩
        · rintro p (_ | ⟨_, hp⟩)
          · exact List.mem_cons_self
          · exact List.mem_cons_of_mem _ (hnew p hp)
        · rw [hkeys k, AList.mem_insert]
          simp only [List.mem_cons, Prod.mk.injEq, and_true]
          tauto
        · have hne : k ≠ addr := fun he => hna (he ▸ Map.mem_of_lookup_eq_some hk)
          exact hkeep k h (by rw [AList.lookup_insert_ne hne]; exact hk)

/-- The first loop dials the trimmed URLs and deletes them from `notFound`, independently. -/
theorem foldl_dialIfNew (urls : List (List Char)) (c : FailoverRPCClients T)
    (nf : List (List Char)) :
    urls.foldl (dialIfNew dialer) (c, nf) =
      ((urls.map trimURL).foldl (dialNew dialer) c, (urls.map trimURL).foldl List.erase nf) := by
  induction urls generalizing c nf with
  | nil => rfl
  | cons url urls ih =>
      rw [List.foldl_cons, dialIfNew, ih]
      rfl

/-- The closing loop over distinct addresses that have clients returns: it deletes them,
closes their connections in order, and changes nothing else. -/
theorem forEach_closeRedundant {nf : List (List Char)} (hnd : nf.Nodup)
    {c : FailoverRPCClients T} (hmem : ∀ k ∈ nf, k ∈ c.clients) :
    ∃ c', Loop.forEach closeRedundant nf c = (c', .ok ()) ∧ c'.leader = c.leader ∧
      c'.dials = c.dials ∧
      c'.closed = c.closed ++ nf.filterMap (fun k => (c.clients.lookup k).map ClientHolder.conn) ∧
      ∀ k, c'.clients.lookup k = if k ∈ nf then none else c.clients.lookup k := by
  induction nf generalizing c with
  | nil => exact ⟨c, rfl, rfl, rfl, by simp, fun k => by simp⟩
  | cons k nf ih =>
      obtain ⟨hk, hnd'⟩ := List.nodup_cons.1 hnd
      obtain ⟨h, hh⟩ := Option.isSome_iff_exists.1 (AList.lookup_isSome.2 (hmem k (by simp)))
      have hbody : closeRedundant k c =
          ({ c with clients := c.clients.erase k, closed := c.closed ++ [h.conn] }, .ok ()) := by
        simp [closeRedundant, hh]
      -- the later addresses still have their clients
      have hmem' : ∀ k' ∈ nf, k' ∈ c.clients.erase k := fun k' hk' =>
        AList.mem_erase.2 ⟨fun he => hk (he ▸ hk'), hmem k' (List.mem_cons_of_mem _ hk')⟩
      obtain ⟨c', hloop, hleader, hdials, hclosed, hlookup⟩ :=
        ih (c := { c with clients := c.clients.erase k, closed := c.closed ++ [h.conn] }) hnd' hmem'
      refine ⟨c', by rw [Loop.forEach_cons_of_ok nf hbody, hloop], hleader, hdials, ?_,
        fun k' => ?_⟩
      · rw [hclosed, List.filterMap_cons_some (b := h.conn) (by simp [hh]), List.append_assoc,
          List.singleton_append]
        congr 2
        apply List.filterMap_congr
        intro k' hk'
        rw [AList.lookup_erase_ne (fun he : k' = k => hk (he ▸ hk'))]
      · rw [hlookup k']
        by_cases hkk : k' = k
        · subst hkk
          simp [hk, AList.lookup_erase]
        · simp [hkk, AList.lookup_erase_ne hkk]

@[simp] theorem electLeader_clients (c : FailoverRPCClients T) (leaderURL : List Char)
    (start : Nat) : (electLeader c leaderURL start).clients = c.clients := by
  unfold electLeader
  split <;> rfl

@[simp] theorem electLeader_dials (c : FailoverRPCClients T) (leaderURL : List Char)
    (start : Nat) : (electLeader c leaderURL start).dials = c.dials := by
  unfold electLeader
  split <;> rfl

@[simp] theorem electLeader_closed (c : FailoverRPCClients T) (leaderURL : List Char)
    (start : Nat) : (electLeader c leaderURL start).closed = c.closed := by
  unfold electLeader
  split <;> rfl

/-- The first key of a map iteration, whatever its order, is a key. -/
theorem headD_rotate_mem {l : List (List Char)} (hl : l ≠ []) (n : Nat) :
    (l.rotate n).headD [] ∈ l := by
  cases hr : l.rotate n with
  | nil => exact absurd (List.rotate_eq_nil_iff.1 hr) hl
  | cons a t =>
      have ha : a ∈ l.rotate n := by rw [hr]; exact List.mem_cons_self
      simpa using List.mem_rotate.1 ha

/-- The leader an update elects is "" or a key, "" when there is no key, and the trimmed
`leaderURL` when that is a key. -/
theorem electLeader_leader (c : FailoverRPCClients T) (leaderURL : List Char) (start : Nat) :
    ((electLeader c leaderURL start).leader = [] ∨
        (electLeader c leaderURL start).leader ∈ c.clients) ∧
      (c.clients.entries = [] → (electLeader c leaderURL start).leader = []) ∧
      (trimURL leaderURL ∈ c.clients →
        (electLeader c leaderURL start).leader = trimURL leaderURL) := by
  cases hl : c.clients.lookup (trimURL leaderURL) with
  | some h =>
      have hmem : trimURL leaderURL ∈ c.clients := Map.mem_of_lookup_eq_some hl
      have heq : electLeader c leaderURL start = { c with leader := trimURL leaderURL } := by
        simp [electLeader, hl]
      rw [heq]
      refine ⟨.inr hmem, fun he => ?_, fun _ => rfl⟩
      -- a map with no entries has no key
      rw [AList.mem_keys, AList.keys, he] at hmem
      cases hmem
  | none =>
      have hnot : trimURL leaderURL ∉ c.clients := AList.lookup_eq_none.1 hl
      have heq : electLeader c leaderURL start =
          { c with leader := (c.clients.keys.rotate start).headD [] } := by
        simp [electLeader, hl]
      rw [heq]
      refine ⟨?_, fun he => ?_, fun hmem => absurd hmem hnot⟩
      · by_cases hk : c.clients.keys = []
        · exact .inl (by simp [hk])
        · exact .inr (AList.mem_keys.2 (headD_rotate_mem hk start))
      · have hk : c.clients.keys = [] := by simp [AList.keys, he]
        simp [hk]

/-- `UpdateClients` returns. Afterwards the addresses with a client are the trimmed URLs
that had one or that a dial of this call reached; a trimmed URL that had a client keeps it;
the connections closed are those of the addresses that are not trimmed URLs; and the leader
is "" or a key, "" when there is no key, and the trimmed `leaderURL` when that is a key. -/
theorem updateClients_spec (dialer : Nat → List Char → Option T) (c : FailoverRPCClients T)
    (urls : List (List Char)) (leaderURL : List Char) (start : Nat) :
    ∃ c', updateClients dialer c urls leaderURL start = .ok c' ∧
      (∃ new, c'.dials = c.dials ++ new ∧
        ∀ k, k ∈ c'.clients ↔
          k ∈ urls.map trimURL ∧ (k ∈ c.clients ∨ (k, true) ∈ new)) ∧
      (∀ k h, c.clients.lookup k = some h → k ∈ urls.map trimURL →
        c'.clients.lookup k = some h) ∧
      (∀ n, n ∈ c'.closed ↔ n ∈ c.closed ∨
        ∃ k h, c.clients.lookup k = some h ∧ k ∉ urls.map trimURL ∧ h.conn = n) ∧
      (c'.leader = [] ∨ c'.leader ∈ c'.clients) ∧
      (c'.clients.entries = [] → c'.leader = []) ∧
      (trimURL leaderURL ∈ c'.clients → c'.leader = trimURL leaderURL) := by
  set L := urls.map trimURL
  obtain ⟨new, hdials, hnew, hkeys, hkeep, hclosed1⟩ := foldl_dialNew dialer L c
  obtain ⟨hnd, hnf⟩ := Map.mem_foldl_erase L c.clients.keys_nodup
  -- `notFound` holds the old keys that are not trimmed URLs, and they all have clients
  have hmem : ∀ k ∈ L.foldl List.erase c.clients.keys,
      k ∈ (L.foldl (dialNew dialer) c).clients :=
    fun k hk => (hkeys k).2 (.inl (AList.mem_keys.2 ((hnf k).1 hk).1))
  obtain ⟨c2, hloop, -, hdials2, hclosed2, hlookup⟩ := forEach_closeRedundant hnd hmem
  have hupdate :
      updateClients dialer c urls leaderURL start = .ok (electLeader c2 leaderURL start) := by
    simp only [updateClients, foldl_dialIfNew]
    rw [hloop]
  obtain ⟨hleader, hempty, htrim⟩ := electLeader_leader c2 leaderURL start
  refine ⟨_, hupdate, ⟨new, by rw [electLeader_dials, hdials2, hdials], fun k => ?_⟩,
    fun k h hk hkL => ?_, fun n => ?_, by simpa using hleader, by simpa using hempty,
    by simpa using htrim⟩
  · rw [electLeader_clients, ← AList.lookup_isSome, hlookup k]
    by_cases hkL : k ∈ L
    · have hnot : k ∉ L.foldl List.erase c.clients.keys := fun h' => ((hnf k).1 h').2 hkL
      rw [if_neg hnot, AList.lookup_isSome, hkeys k]
      simp [hkL]
    · -- a dial of this call was a dial of a trimmed URL
      have hnotnew : (k, true) ∉ new := fun hn => hkL (hnew _ hn)
      by_cases hkc : k ∈ c.clients
      · have hin : k ∈ L.foldl List.erase c.clients.keys :=
          (hnf k).2 ⟨AList.mem_keys.1 hkc, hkL⟩
        rw [if_pos hin]
        simp [hkL]
      · have hnot : k ∉ L.foldl List.erase c.clients.keys :=
          fun h' => hkc (AList.mem_keys.2 ((hnf k).1 h').1)
        rw [if_neg hnot, AList.lookup_isSome, hkeys k]
        simp [hkL, hkc, hnotnew]
  · rw [electLeader_clients, hlookup k, if_neg fun h' => ((hnf k).1 h').2 hkL]
    exact hkeep k h hk
  · rw [electLeader_closed, hclosed2, hclosed1, List.mem_append, List.mem_filterMap]
    constructor
    · rintro (hn | ⟨k, hk, hkn⟩)
      · exact .inl hn
      · obtain ⟨hkc, hkL⟩ := (hnf k).1 hk
        obtain ⟨h, hh⟩ :=
          Option.isSome_iff_exists.1 (AList.lookup_isSome.2 (AList.mem_keys.1 hkc))
        rw [hkeep k h hh] at hkn
        exact .inr ⟨k, h, hh, hkL, Option.some.inj hkn⟩
    · rintro (hn | ⟨k, h, hh, hkL, rfl⟩)
      · exact .inl hn
      · refine .inr
          ⟨k, (hnf k).2 ⟨AList.mem_keys.1 (Map.mem_of_lookup_eq_some hh), hkL⟩, ?_⟩
        rw [hkeep k h hh]
        rfl

/-! ## The connections over every run -/

/-- The connection `n` is held under some address. -/
def Holds (c : FailoverRPCClients T) (n : Nat) : Prop :=
  ∃ k h, c.clients.lookup k = some h ∧ h.conn = n

/-- How the held and the closed connections stand to the dials. -/
structure ConnInv (c : FailoverRPCClients T) : Prop where
  /-- A held connection was opened by a dial of its address. -/
  held : ∀ k h, c.clients.lookup k = some h → c.dials[h.conn]? = some (k, true)
  nodup : c.closed.Nodup
  closed_opened : ∀ n ∈ c.closed, ∃ k, c.dials[n]? = some (k, true)
  closed_not_held : ∀ n ∈ c.closed, ¬ Holds c n
  /-- An opened connection is held or closed. -/
  opened : ∀ n k, c.dials[n]? = some (k, true) → Holds c n ∨ n ∈ c.closed

/-- `ConnInv`, and the leader is "" or a key, and "" when there is no key. -/
structure Inv (c : FailoverRPCClients T) : Prop extends ConnInv c where
  leader : c.leader = [] ∨ c.leader ∈ c.clients
  empty : c.clients.entries = [] → c.leader = []

variable {c : FailoverRPCClients T}

theorem inv_empty : Inv (empty : FailoverRPCClients T) where
  held := fun _ _ h => by simp [empty] at h
  nodup := List.nodup_nil
  closed_opened := fun _ h => by simp [empty] at h
  closed_not_held := fun _ h => by simp [empty] at h
  opened := fun _ _ h => by simp [empty] at h
  leader := .inl rfl
  empty := fun _ => rfl

/-- A dial is logged after every earlier one, so a dial index that was answered stays below
the length of the log. -/
theorem lt_length_of_dial {n : Nat} {p : List Char × Bool} (h : c.dials[n]? = some p) :
    n < c.dials.length :=
  (List.getElem?_eq_some_iff.1 h).1

/-- A held connection is held under the address of its dial, and under no other. -/
theorem ConnInv.eq_of_held (hc : ConnInv c) {k k' : List Char} {h : ClientHolder T}
    (hk : c.clients.lookup k = some h) (hd : c.dials[h.conn]? = some (k', true)) : k = k' := by
  have hheld := hc.held k h hk
  rw [hd] at hheld
  exact (Prod.mk.inj (Option.some.inj hheld)).1.symm

/-- The invariant depends only on the clients, the dials and the closings. -/
theorem ConnInv.congr {c' : FailoverRPCClients T} (hc : ConnInv c) (hcl : c'.clients = c.clients)
    (hd : c'.dials = c.dials) (hcs : c'.closed = c.closed) : ConnInv c' := by
  obtain ⟨hheld, hnd, hco, hcnh, hop⟩ := hc
  have hholds : ∀ n, Holds c' n ↔ Holds c n := fun n => by simp only [Holds, hcl]
  refine ⟨?_, ?_, ?_, ?_, ?_⟩ <;> simp only [hcl, hd, hcs, hholds] <;> assumption

theorem ConnInv.dialNew (hc : ConnInv c) (addr : List Char) :
    ConnInv (FailoverRPCClients.dialNew dialer c addr) := by
  rcases dialNew_cases dialer c addr with ⟨-, h⟩ | ⟨-, -, h⟩ | ⟨cli, hna, -, h⟩
  · rw [h]
    exact hc
  · -- a failed dial opens nothing
    rw [h]
    exact
      { held := fun k h hk => Word.getElem?_append_singleton_eq_some.2 (.inl (hc.held k h hk))
        nodup := hc.nodup
        closed_opened := fun n hn => by
          obtain ⟨k, hk⟩ := hc.closed_opened n hn
          exact ⟨k, Word.getElem?_append_singleton_eq_some.2 (.inl hk)⟩
        closed_not_held := hc.closed_not_held
        opened := fun n k hn => by
          rcases Word.getElem?_append_singleton_eq_some.1 hn with hn | ⟨-, hp⟩
          · exact hc.opened n k hn
          · simp at hp }
  · -- a successful dial opens the connection named by its index, held under the address
    rw [h]
    have hold : ∀ k h, c.clients.lookup k = some h →
        (c.clients.insert addr ⟨c.dials.length, cli⟩).lookup k = some h := fun k h hk => by
      have hne : k ≠ addr := fun he => hna (he ▸ Map.mem_of_lookup_eq_some hk)
      rw [AList.lookup_insert_ne hne]
      exact hk
    refine ⟨fun k h hk => ?_, hc.nodup, fun n hn => ?_, fun n hn => ?_, fun n k hn => ?_⟩
    · rcases Map.lookup_insert_eq_some hk with ⟨rfl, rfl⟩ | ⟨-, hk⟩
      · exact Word.getElem?_append_singleton_eq_some.2 (.inr ⟨rfl, rfl⟩)
      · exact Word.getElem?_append_singleton_eq_some.2 (.inl (hc.held k h hk))
    · obtain ⟨k, hk⟩ := hc.closed_opened n hn
      exact ⟨k, Word.getElem?_append_singleton_eq_some.2 (.inl hk)⟩
    · -- a closed connection is older than the new one
      rintro ⟨k, h, hk, rfl⟩
      rcases Map.lookup_insert_eq_some hk with ⟨-, rfl⟩ | ⟨-, hk⟩
      · obtain ⟨k', hk'⟩ := hc.closed_opened _ hn
        exact absurd (lt_length_of_dial hk') (lt_irrefl _)
      · exact hc.closed_not_held _ hn ⟨k, h, hk, rfl⟩
    · rcases Word.getElem?_append_singleton_eq_some.1 hn with hn | ⟨rfl, hp⟩
      · rcases hc.opened n k hn with ⟨k', h, hk', rfl⟩ | hcl
        · exact .inl ⟨k', h, hold k' h hk', rfl⟩
        · exact .inr hcl
      · exact .inl ⟨addr, ⟨c.dials.length, cli⟩, AList.lookup_insert _, rfl⟩

theorem ConnInv.closeRedundant (hc : ConnInv c) (k : List Char) :
    ConnInv (closeRedundant k c).1 := by
  cases hk : c.clients.lookup k with
  | none => simpa [FailoverRPCClients.closeRedundant, hk] using hc
  | some h =>
      simp only [FailoverRPCClients.closeRedundant, hk]
      -- the closed connection was held under `k` alone
      have hheld : c.dials[h.conn]? = some (k, true) := hc.held k h hk
      have honly : ∀ k' h', c.clients.lookup k' = some h' → h'.conn = h.conn → k' = k :=
        fun k' h' hk' hconn => hc.eq_of_held hk' (hconn ▸ hheld)
      refine ⟨fun k' h' hk' => ?_, ?_, fun n hn => ?_, fun n hn => ?_, fun n k' hn => ?_⟩
      · exact hc.held k' h' (Map.lookup_erase_eq_some hk').2
      · have hnot : h.conn ∉ c.closed := fun hin => hc.closed_not_held _ hin ⟨k, h, hk, rfl⟩
        simpa using (List.nodup_concat c.closed h.conn).2 ⟨hnot, hc.nodup⟩
      · rcases List.mem_append.1 hn with hn | hn
        · exact hc.closed_opened n hn
        · rw [List.mem_singleton.1 hn]
          exact ⟨k, hheld⟩
      · rintro ⟨k', h', hk', rfl⟩
        obtain ⟨hne, hk'⟩ := Map.lookup_erase_eq_some hk'
        rcases List.mem_append.1 hn with hn | hn
        · exact hc.closed_not_held _ hn ⟨k', h', hk', rfl⟩
        · exact hne (honly k' h' hk' (List.mem_singleton.1 hn))
      · rcases hc.opened n k' hn with ⟨k'', h', hk'', rfl⟩ | hcl
        · by_cases hkk : k'' = k
          · subst hkk
            rw [hk] at hk''
            cases hk''
            exact .inr (List.mem_append_right _ (List.mem_singleton_self _))
          · exact .inl ⟨k'', h', by rw [AList.lookup_erase_ne hkk]; exact hk'', rfl⟩
        · exact .inr (List.mem_append_left _ hcl)

/-- Both loops of `UpdateClients` keep the invariant of the connections. -/
theorem ConnInv.updateClients (hc : ConnInv c) {urls : List (List Char)} {leaderURL : List Char}
    {start : Nat} {c' : FailoverRPCClients T}
    (h : FailoverRPCClients.updateClients dialer c urls leaderURL start = .ok c') :
    ConnInv c' := by
  simp only [FailoverRPCClients.updateClients, foldl_dialIfNew] at h
  have h1 : ConnInv ((urls.map trimURL).foldl (FailoverRPCClients.dialNew dialer) c) :=
    Loop.foldl_inv (fun s _ _ hs => hs.dialNew _) hc
  have h2 : ConnInv (Loop.forEach FailoverRPCClients.closeRedundant
      ((urls.map trimURL).foldl List.erase c.clients.keys)
      ((urls.map trimURL).foldl (FailoverRPCClients.dialNew dialer) c)).1 :=
    Loop.forEach_fst_inv (P := ConnInv) (fun _ _ s hs => ConnInv.closeRedundant hs _) h1
  rcases hl : Loop.forEach FailoverRPCClients.closeRedundant
      ((urls.map trimURL).foldl List.erase c.clients.keys)
      ((urls.map trimURL).foldl (FailoverRPCClients.dialNew dialer) c) with
      ⟨c2, ⟨e⟩ | ⟨⟩⟩
  · rw [hl] at h
    cases h
  · rw [hl] at h h2
    cases h
    exact h2.congr (electLeader_clients _ _ _) (electLeader_dials _ _ _) (electLeader_closed _ _ _)

/-- The step lemma: every call keeps the invariant. -/
theorem Inv.step (hc : Inv c) {a : Action} {c' : FailoverRPCClients T}
    (h : Rpcutil.step dialer c a = .ok c') : Inv c' := by
  cases a with
  | updateClients urls leaderURL start =>
      obtain ⟨c'', hu, -, -, -, hleader, hempty, -⟩ :=
        updateClients_spec dialer c urls leaderURL start
      have hc' : c'' = c' := Except.ok.inj (hu.symm.trans h)
      subst hc'
      exact ⟨hc.toConnInv.updateClients hu, hleader, hempty⟩
  | getLeaderClient =>
      -- reading the leader changes nothing
      cases hg : getLeaderClient c with
      | error e => simp [Rpcutil.step, hg, Except.map] at h
      | ok _ =>
          simp only [Rpcutil.step, hg, Except.map] at h
          exact Except.ok.inj h ▸ hc

/-- No call panics from a state of the invariant. -/
theorem Inv.step_ne_error (hc : Inv c) (a : Action) (e : Panic) :
    Rpcutil.step dialer c a ≠ .error e := by
  cases a with
  | updateClients urls leaderURL start =>
      obtain ⟨c', hu, -⟩ := updateClients_spec dialer c urls leaderURL start
      simp only [Rpcutil.step, hu, ne_eq, reduceCtorEq, not_false_eq_true]
  | getLeaderClient =>
      rcases hc.leader with hl | hl
      · simp [Rpcutil.step, getLeaderClient, hl, Except.map]
      · obtain ⟨h, hh⟩ := Option.isSome_iff_exists.1 (AList.lookup_isSome.2 hl)
        by_cases hl' : c.leader = []
        · simp [Rpcutil.step, getLeaderClient, hl', Except.map]
        · simp [Rpcutil.step, getLeaderClient, hl', hh, Except.map]

/-- The run lemma: the invariant holds in every reachable state. -/
theorem inv_of_reachable (h : Transition.Reachable (step dialer) allowed empty c) : Inv c :=
  Transition.Reachable.inv inv_empty (fun _ _ _ hs _ h => hs.step h) h

/-- Over every sequence of calls and every answer of the dialer: the leader is "" or a key,
and "" when there is no key; each connection a dial opened is either held under the address
it was dialed at and not closed, or closed once and held nowhere; and no call panics, neither
`GetLeaderClient` ("leader client not found") nor the closing loop of `UpdateClients`. -/
theorem failoverRPCClients_run (dialer : Nat → List Char → Option T) :
    (∀ c, Transition.Reachable (step dialer) allowed empty c →
      (c.leader = [] ∨ c.leader ∈ c.clients) ∧ (c.clients.entries = [] → c.leader = []) ∧
      c.closed.Nodup ∧
      ∀ n k, c.dials[n]? = some (k, true) →
        (∃ h, c.clients.lookup k = some h ∧ h.conn = n ∧ n ∉ c.closed) ∨
          (c.closed.count n = 1 ∧ ¬ Holds c n)) ∧
    ¬ Transition.PanicReachable (step dialer) allowed empty (fun _ => True) := by
  refine ⟨fun c hr => ?_, Transition.not_panicReachable (fun _ => inv_of_reachable)
    fun c a e hc _ he _ => hc.step_ne_error a e he⟩
  have hc := inv_of_reachable hr
  refine ⟨hc.leader, hc.empty, hc.nodup, fun n k hn => ?_⟩
  rcases hc.opened n k hn with ⟨k', h, hk', rfl⟩ | hcl
  · -- the holder is the address of the dial
    obtain rfl : k' = k := hc.eq_of_held hk' hn
    exact .inl ⟨h, hk', rfl, fun hin => hc.closed_not_held _ hin ⟨k', h, hk', rfl⟩⟩
  · exact .inr ⟨List.count_eq_one_of_mem hc.nodup hcl, hc.closed_not_held n hcl⟩

end FailoverRPCClients

/-! ## An address that trims to "" -/

/-- A URL that is only the scheme trims to the address "": when its dial succeeds,
`NewFailoverRPCClients` returns without error and with a client under "", the leader is ""
although `clients` is not empty, and `GetLeaderClient` returns the zero client. -/
theorem scheme_only_url_leaves_empty_leader :
    ∃ c, newFailoverRPCClients (fun _ _ => some ()) ["http://".toList] 0 = .ok (c, .ok ()) ∧
      [] ∈ c.clients ∧ c.leader = [] ∧ getLeaderClient c = .ok none :=
  ⟨_, rfl, by decide, rfl, rfl⟩

end Rpcutil

end Microcosm
