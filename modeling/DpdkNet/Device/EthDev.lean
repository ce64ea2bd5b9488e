import DpdkNet.Lib.Grouped

/-! # The RSS redirection table

    `api/rte/eth.rs`: the table by which the NIC maps the hash of a flow to a
    receive queue.  `configure_rss_reta` fills it with the queues in turn,
    `query_rss_reta` reads it back; both walk it in groups of 64, the last of
    which may be ragged.

    The driver is reached through three C calls, `EthDriver` is that surface.
    What is relied on is that a table it took is the one it gives back. -/

namespace DpdkNet

open Grouped

/-- The part of `rte_eth_dev_info` that is read. -/
structure DevInfo where
  retaSize : UInt16
  maxRxQueues : UInt16
  maxTxQueues : UInt16

/-- `rte_eth_rss_reta_entry64`: 64 entries, and which of them are meant. -/
structure RetaEntry64 where
  mask : UInt64
  reta : Vector UInt16 64

/-- `std::mem::zeroed` -/
def RetaEntry64.zeroed : RetaEntry64 := ⟨0, Vector.replicate 64 0⟩

/-- `u64::MAX` -/
def u64Max : UInt64 := 0xFFFFFFFFFFFFFFFF

/-- The calls, over whatever state the NIC has; a negative return code is an
    error, and `rteErrno` then says which. -/
structure EthDriver (ρ : Type) where
  devInfoGet : ρ → Int × DevInfo
  rssRetaUpdate : ρ → List RetaEntry64 → UInt16 → Int × ρ
  rssRetaQuery : ρ → List RetaEntry64 → UInt16 → Int × List RetaEntry64
  rteErrno : ρ → Int

/-- Why a call does not return `Ok`. -/
inductive EthFault where
  | errno (code : Int)
  /-- The remainder by zero. -/
  | panicked

variable {ρ : Type}

def checkRteSuccess (E : EthDriver ρ) (s : ρ) (ret : Int) : Except EthFault Unit :=
  if ret < 0 then .error (.errno (E.rteErrno s)) else .ok ()

namespace EthDev

def info (E : EthDriver ρ) (s : ρ) : Except EthFault DevInfo := do
  let got := E.devInfoGet s
  checkRteSuccess E s got.1
  return got.2

/-- Each group covers 64 entries. -/
def numGroups (retaSize : UInt16) : Nat := (retaSize.toNat + 63) / 64

/-- The table that is written: entry after entry, the queues in turn. -/
def retaConf (retaSize nbRxQueues : UInt16) : List RetaEntry64 :=
  (List.replicate (numGroups retaSize) RetaEntry64.zeroed).mapIdx fun groupIdx group =>
    { mask := u64Max
      reta := group.reta.mapFinIdx fun i old _ =>
        let entryIdx := groupIdx * 64 + i
        if entryIdx < retaSize.toNat then UInt16.ofNat (entryIdx % nbRxQueues.toNat) else old }

/-- Configure the table to distribute packets across the queues. -/
def configureRssReta (E : EthDriver ρ) (nbRxQueues : UInt16) (s : ρ) : Except EthFault ρ := do
  let retaSize := (← info E s).retaSize
  if retaSize = 0 then return s
  else if nbRxQueues = 0 then throw .panicked
  else
    let updated := E.rssRetaUpdate s (retaConf retaSize nbRxQueues) retaSize
    checkRteSuccess E updated.2 updated.1
    return updated.2

/-- The table that is read from the groups. -/
def retaTable (retaSize : UInt16) (conf : List RetaEntry64) : List UInt16 :=
  (conf.mapIdx fun groupIdx group =>
    (List.finRange 64).flatMap fun i : Fin 64 =>
      if groupIdx * 64 + i < retaSize.toNat then [group.reta[i]] else []).flatten

/-- The groups that are asked for, with all their slots. -/
def retaQuery (retaSize : UInt16) : List RetaEntry64 :=
  (List.replicate (numGroups retaSize) RetaEntry64.zeroed).map
    fun group => { group with mask := u64Max }

/-- Query the current configuration of the table. -/
def queryRssReta (E : EthDriver ρ) (s : ρ) : Except EthFault (List UInt16) := do
  let retaSize := (← info E s).retaSize
  if retaSize = 0 then return []
  else
    let queried := E.rssRetaQuery s (retaQuery retaSize) retaSize
    checkRteSuccess E s queried.1
    return retaTable retaSize queried.2

end EthDev

open EthDev

/-! ## What is read back -/

/-- The driver stores what it is given: after an update that it accepted, a query
    of the same size succeeds and returns the entries that both ask for. -/
structure EthDriver.Stores (E : EthDriver ρ) : Prop where
  info_update : ∀ s conf n, E.devInfoGet (E.rssRetaUpdate s conf n).2 = E.devInfoGet s
  query_ok : ∀ s conf conf' n, 0 ≤ (E.rssRetaUpdate s conf n).1 → conf'.length = conf.length →
    0 ≤ (E.rssRetaQuery (E.rssRetaUpdate s conf n).2 conf' n).1
  query_length : ∀ s conf n, (E.rssRetaQuery s conf n).2.length = conf.length
  query_update : ∀ s (conf conf' : List RetaEntry64) (n : UInt16),
    0 ≤ (E.rssRetaUpdate s conf n).1 → conf'.length = conf.length →
    ∀ (g : Nat) (i : Fin 64) (u v r : RetaEntry64), g * 64 + i < n.toNat →
      conf[g]? = some u → conf'[g]? = some v →
      (E.rssRetaQuery (E.rssRetaUpdate s conf n).2 conf' n).2[g]? = some r →
      u.mask.toNat.testBit i = true → v.mask.toNat.testBit i = true → r.reta[i] = u.reta[i]

/-- The queues in turn, none of them more than once ahead of another. -/
structure RoundRobin (retaSize nbRxQueues : UInt16) (table : List UInt16) : Prop where
  complete : table.length = retaSize.toNat
  entry : ∀ (i : Nat) (q : UInt16), table[i]? = some q → q.toNat = i % nbRxQueues.toNat
  bounded : ∀ q ∈ table, q < nbRxQueues
  balanced : ∀ q r : UInt16, q < nbRxQueues → r < nbRxQueues → table.count q ≤ table.count r + 1

theorem numGroups_cover (retaSize : UInt16) : retaSize.toNat ≤ numGroups retaSize * 64 := by
  rw [numGroups]
  omega

/-- Groups that hold `f` in the slots that count are read as the table of `f`. -/
theorem retaTable_eq {retaSize : UInt16} {conf : List RetaEntry64}
    (hlen : conf.length = numGroups retaSize) (f : Nat → UInt16)
    (hf : ∀ (g : Nat) (i : Fin 64) (r : RetaEntry64), conf[g]? = some r →
      g * 64 + i < retaSize.toNat → r.reta[i] = f (g * 64 + i)) :
    retaTable retaSize conf = (List.range retaSize.toNat).map f := by
  have hgroups : (conf.mapIdx fun groupIdx group =>
      (List.finRange 64).flatMap fun i : Fin 64 =>
        if groupIdx * 64 + i < retaSize.toNat then [group.reta[i]] else []) =
      (List.range (numGroups retaSize)).map fun g => (List.range 64).flatMap fun i =>
        if g * 64 + i < retaSize.toNat then [f (g * 64 + i)] else [] := by
    refine List.ext_getElem (by simp [hlen]) fun g hg _ => ?_
    rw [List.getElem_mapIdx, List.getElem_map, List.getElem_range, ← List.map_coe_finRange_eq_range,
      List.flatMap_map]
    refine List.flatMap_congr fun i _ => ?_
    by_cases hin : g * 64 + i < retaSize.toNat
    · rw [if_pos hin, if_pos hin, hf g i _ (List.getElem?_eq_getElem _) hin]
    · rw [if_neg hin, if_neg hin]
  rw [retaTable, hgroups, ← List.flatMap_def]
  exact range_flatMap_ragged (numGroups_cover retaSize) f

/-- The `j`-th entry. -/
def turn (nbRxQueues : UInt16) (j : Nat) : UInt16 := UInt16.ofNat (j % nbRxQueues.toNat)

/-- It is a queue: the conversion to `u16` does not wrap. -/
theorem toNat_turn {nbRxQueues : UInt16} (hnb : 0 < nbRxQueues) (j : Nat) :
    (turn nbRxQueues j).toNat = j % nbRxQueues.toNat ∧ j % nbRxQueues.toNat < nbRxQueues.toNat := by
  have hlt : j % nbRxQueues.toNat < nbRxQueues.toNat := Nat.mod_lt j hnb
  exact ⟨UInt16.toNat_ofNat_of_lt' (Nat.lt_trans hlt nbRxQueues.toNat_lt), hlt⟩

theorem roundRobin_turn {retaSize nbRxQueues : UInt16} (hnb : 0 < nbRxQueues) :
    RoundRobin retaSize nbRxQueues ((List.range retaSize.toNat).map (turn nbRxQueues)) where
  complete := by rw [List.length_map, List.length_range]
  entry i q h := by
    rw [List.getElem?_map, Option.map_eq_some_iff] at h
    obtain ⟨j, hj, rfl⟩ := h
    obtain ⟨hi, hj⟩ := List.getElem?_eq_some_iff.mp hj
    rw [List.getElem_range] at hj
    rw [hj]
    exact (toNat_turn hnb j).1
  bounded q h := by
    obtain ⟨j, -, rfl⟩ := List.mem_map.mp h
    rw [UInt16.lt_iff_toNat_lt, (toNat_turn hnb j).1]
    exact (toNat_turn hnb j).2
  balanced q r hq hr := by
    have hcount : ∀ u : UInt16, ((List.range retaSize.toNat).map (turn nbRxQueues)).count u
        = ((List.range retaSize.toNat).map (· % nbRxQueues.toNat)).count u.toNat := by
      intro u
      rw [← List.count_map_of_injective _ UInt16.toNat (fun _ _ => UInt16.toNat_inj.mp), List.map_map]
      congr 1
      exact List.map_congr_left fun j _ => (toNat_turn hnb j).1
    rw [hcount, hcount]
    exact count_range_mod_le _ hq hr

/-- The groups that are written: all slots are meant, and those that count hold
    the queues in turn. -/
theorem retaConf_get {retaSize nbRxQueues : UInt16} {g : Nat} {r : RetaEntry64}
    (h : (retaConf retaSize nbRxQueues)[g]? = some r) :
    r.mask = u64Max ∧ ∀ i : Fin 64, g * 64 + i < retaSize.toNat →
      r.reta[i] = turn nbRxQueues (g * 64 + i) := by
  rw [retaConf, List.getElem?_mapIdx, Option.map_eq_some_iff] at h
  obtain ⟨z, -, rfl⟩ := h
  refine ⟨rfl, fun i hi => ?_⟩
  show (z.reta.mapFinIdx _)[i.val] = _
  rw [Vector.getElem_mapFinIdx]
  exact if_pos hi

theorem length_retaConf (retaSize nbRxQueues : UInt16) :
    (retaConf retaSize nbRxQueues).length = numGroups retaSize := by
  rw [retaConf, List.length_mapIdx, List.length_replicate]

theorem length_retaQuery (retaSize : UInt16) :
    (retaQuery retaSize).length = numGroups retaSize := by
  rw [retaQuery, List.length_map, List.length_replicate]

theorem retaQuery_get {retaSize : UInt16} {g : Nat} {r : RetaEntry64}
    (h : (retaQuery retaSize)[g]? = some r) : r.mask = u64Max := by
  rw [retaQuery, List.getElem?_map, Option.map_eq_some_iff] at h
  obtain ⟨z, -, rfl⟩ := h
  rfl

theorem testBit_u64Max (i : Fin 64) : u64Max.toNat.testBit i = true := by
  have h : u64Max.toNat = 2 ^ 64 - 1 := rfl
  rw [h, Nat.testBit_two_pow_sub_one]
  exact decide_eq_true i.isLt

theorem checkRteSuccess_ok {E : EthDriver ρ} {s : ρ} {ret : Int} :
    checkRteSuccess E s ret = .ok () ↔ 0 ≤ ret := by
  rw [checkRteSuccess]
  split
  · exact iff_of_false nofun (by omega)
  · exact iff_of_true rfl (by omega)

theorem info_eq_ok {E : EthDriver ρ} {s : ρ} {dev : DevInfo} :
    info E s = .ok dev ↔ 0 ≤ (E.devInfoGet s).1 ∧ (E.devInfoGet s).2 = dev := by
  simp only [info, bind, Except.bind, ← checkRteSuccess_ok (E := E) (s := s)]
  cases checkRteSuccess E s (E.devInfoGet s).1 with
  | error e => exact iff_of_false nofun (fun h => nomatch h.1)
  | ok u => exact ⟨fun h => ⟨rfl, Except.ok.inj h⟩, fun h => congrArg Except.ok h.2⟩

/-- What a successful `configure_rss_reta` has done. -/
theorem configureRssReta_ok {E : EthDriver ρ} {s s' : ρ} {dev : DevInfo} {nbRxQueues : UInt16}
    (hinfo : info E s = .ok dev) (hsize : dev.retaSize ≠ 0) (hnb : nbRxQueues ≠ 0)
    (h : configureRssReta E nbRxQueues s = .ok s') :
    0 ≤ (E.rssRetaUpdate s (retaConf dev.retaSize nbRxQueues) dev.retaSize).1 ∧
      s' = (E.rssRetaUpdate s (retaConf dev.retaSize nbRxQueues) dev.retaSize).2 := by
  simp only [configureRssReta, hinfo, bind, Except.bind, if_neg hsize, if_neg hnb] at h
  split at h
  · cases h
  · rename_i hcheck
    exact ⟨checkRteSuccess_ok.mp hcheck, (Except.ok.inj h).symm⟩

/-- **THE TABLE IS BALANCED AND COMPLETE**: a driver that took the table that
    `configure_rss_reta` writes gives back, for every size and every number of
    queues, the queues in turn. -/
theorem configured_reta_round_robin (E : EthDriver ρ) (hE : E.Stores) {s s' : ρ} {dev : DevInfo}
    (hinfo : info E s = .ok dev) (hsize : 0 < dev.retaSize) {nbRxQueues : UInt16}
    (hnb : 0 < nbRxQueues) (hset : configureRssReta E nbRxQueues s = .ok s') :
    ∃ table, queryRssReta E s' = .ok table ∧ RoundRobin dev.retaSize nbRxQueues table := by
  have hsize' : dev.retaSize ≠ 0 := UInt16.pos_iff_ne_zero.mp hsize
  have hnb' : nbRxQueues ≠ 0 := UInt16.pos_iff_ne_zero.mp hnb
  obtain ⟨htook, rfl⟩ := configureRssReta_ok hinfo hsize' hnb' hset
  have hinfo' : info E (E.rssRetaUpdate s (retaConf dev.retaSize nbRxQueues) dev.retaSize).2
      = .ok dev := by
    rw [info_eq_ok, hE.info_update]
    exact info_eq_ok.mp hinfo
  -- the query asks for as many groups as were written
  have hlen : (retaQuery dev.retaSize).length = (retaConf dev.retaSize nbRxQueues).length := by
    rw [length_retaQuery, length_retaConf]
  have hanswer := checkRteSuccess_ok (E := E) (s := (E.rssRetaUpdate s
    (retaConf dev.retaSize nbRxQueues) dev.retaSize).2).mpr (hE.query_ok s _ _ _ htook hlen)
  refine ⟨(List.range dev.retaSize.toNat).map (turn nbRxQueues), ?_, roundRobin_turn hnb⟩
  simp only [queryRssReta, hinfo', bind, Except.bind, if_neg hsize', hanswer]
  refine congrArg Except.ok (retaTable_eq ?_ (turn nbRxQueues) ?_)
  · rw [hE.query_length, length_retaQuery]
  · intro g i r hr hi
    have hg : g < (retaQuery dev.retaSize).length := by
      rw [← hE.query_length]
      exact (List.getElem?_eq_some_iff.mp hr).1
    have hv := List.getElem?_eq_getElem hg
    have hu := List.getElem?_eq_getElem (hlen ▸ hg)
    rw [hE.query_update s _ _ _ htook hlen g i _ _ r hi hu hv hr
      ((retaConf_get hu).1 ▸ testBit_u64Max i) (retaQuery_get hv ▸ testBit_u64Max i)]
    exact (retaConf_get hu).2 i hi

/-- A NIC that keeps its table, with room for `n` entries. -/
def tableNic (n : UInt16) : EthDriver (List RetaEntry64) where
  devInfoGet _ := (0, ⟨n, 8, 8⟩)
  rssRetaUpdate _ conf _ := (0, conf)
  rssRetaQuery s conf _ := (0, conf.mapIdx fun g v => { v with reta := (s[g]?.getD v).reta })
  rteErrno _ := 0

theorem tableNic_stores (n : UInt16) : (tableNic n).Stores where
  info_update _ _ _ := rfl
  query_ok _ _ _ _ _ _ := Int.le_refl 0
  query_length _ _ _ := List.length_mapIdx
  query_update s conf conf' m _ _ g i u v r _ hu hv hr _ _ := by
    have hr' : (conf'.mapIdx fun g v => { v with reta := (conf[g]?.getD v).reta })[g]? = some r := hr
    rw [List.getElem?_mapIdx, hv, hu] at hr'
    cases hr'
    rfl

/-- Three queues over a table of a hundred entries. -/
theorem hundred_entries_round_robin :
    ∃ s', configureRssReta (tableNic 100) 3 [] = .ok s' ∧
      ∃ table, queryRssReta (tableNic 100) s' = .ok table ∧ RoundRobin 100 3 table :=
  ⟨_, rfl, configured_reta_round_robin (tableNic 100) (tableNic_stores 100) rfl
    (by decide) (by decide) rfl⟩

end DpdkNet
