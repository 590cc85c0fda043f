/-
# The tunnels of a GTP session

A session on top of GTP remembers the first six tunnel identifiers it is seen with, in an
array in which 0 marks an empty place.  One loop looks for an identifier, finds the first
empty place for a new one and notices that there is none.  `print_gtp_report` prints the
array up to the first 0, between brackets, so it relies on there being no gap.

There is none: after any packets the array holds the different identifiers other than 0 in
the order in which they were seen first, as many as it has places for, and zeros.  The
session report leaves far more room than the part of GTP takes, and so nothing is left out
of the list.
-/

import MmtProbe.Dpi.SessionMessage

namespace MmtProbe.Dpi

open MmtProbe.Configure (Build)
open MmtProbe.Math MmtProbe.Lib MmtProbe.Output

/-! ## The packets of a session -/

/-- What one packet makes of the structure of a session: `_gtp_update_ip` with the addresses
below GTP, and `_gtp_update_teid` with the identifier, if it has one. -/
def GtpStat.packet (gtp : GtpStat) (seen : OuterIp × Option UInt32) : GtpStat :=
  (gtp.updateIp seen.1).updateTeid seen.2

/-- The structure of a session after some packets. -/
def GtpStat.packets (packets : List (OuterIp × Option UInt32)) : GtpStat :=
  packets.foldl GtpStat.packet .zero

/-- The different identifiers other than 0, in the order in which they were seen first. -/
def firstSeen (teids : List UInt32) : List UInt32 := (teids.filter (· ≠ 0)).eraseDups

/-- The array that holds some identifiers. -/
def teidTable (known : List UInt32) : List UInt32 :=
  known.take maxNbTeid ++ List.replicate (maxNbTeid - known.length) 0

/-! ## The array -/

variable {known teids : List UInt32} {teid : UInt32}

theorem addTeid_replicate_zero (teid : UInt32) (count : Nat) :
    addTeid teid (List.replicate (count + 1) 0) = teid :: List.replicate count 0 := by
  rw [List.replicate_succ, addTeid, if_pos rfl]
  split_ifs with hzero
  · rw [hzero]
  · rfl

/-- An identifier that is known already is not added. -/
theorem addTeid_of_mem (listed : teid ∈ known) (rest : List UInt32) (nonzero : 0 ∉ known) :
    addTeid teid (known ++ rest) = known ++ rest := by
  induction known with
  | nil => cases listed
  | cons first known ih =>
      rw [List.mem_cons, not_or] at nonzero
      rw [List.cons_append, addTeid]
      split_ifs with hsame hzero
      · rfl
      · exact absurd hzero.symm nonzero.1
      · rw [ih ((List.mem_cons.mp listed).resolve_left (Ne.symm hsame)) nonzero.2]

/-- An identifier that is not known is looked for behind those that are. -/
theorem addTeid_of_notMem (absent : teid ∉ known) (rest : List UInt32) (nonzero : 0 ∉ known) :
    addTeid teid (known ++ rest) = known ++ addTeid teid rest := by
  induction known with
  | nil => rfl
  | cons first known ih =>
      rw [List.mem_cons, not_or] at nonzero absent
      rw [List.cons_append, addTeid, if_neg (Ne.symm absent.1), if_neg (Ne.symm nonzero.1),
        ih absent.2 nonzero.2, List.cons_append]

theorem notMem_take_firstSeen (teids : List UInt32) (count : Nat) :
    0 ∉ (firstSeen teids).take count := by
  intro listed
  have hseen := List.mem_eraseDups.mp (List.mem_of_mem_take listed)
  rw [List.mem_filter] at hseen
  simp at hseen

/-- One more identifier. -/
theorem firstSeen_concat (teids : List UInt32) (teid : UInt32) :
    firstSeen (teids ++ [teid]) =
      if teid = 0 ∨ teid ∈ firstSeen teids then firstSeen teids
      else firstSeen teids ++ [teid] := by
  have hmem : teid ∈ firstSeen teids ↔ teid ∈ teids ∧ teid ≠ 0 := by
    rw [firstSeen, List.mem_eraseDups, List.mem_filter, decide_eq_true_iff]
  by_cases hzero : teid = 0
  · rw [if_pos (.inl hzero), firstSeen, List.filter_append, hzero]
    simp [firstSeen]
  · by_cases hlisted : teid ∈ teids
    · rw [if_pos (.inr (hmem.mpr ⟨hlisted, hzero⟩)), firstSeen, List.filter_append,
        List.eraseDups_append]
      simp [firstSeen, List.removeAll, hzero, hlisted]
    · have hnew : ¬ (teid = 0 ∨ teid ∈ firstSeen teids) :=
        not_or.mpr ⟨hzero, fun h => hlisted (hmem.mp h).1⟩
      have hone : [teid].eraseDups = [teid] := rfl
      rw [if_neg hnew, firstSeen, List.filter_append, List.eraseDups_append]
      simp [firstSeen, List.removeAll, hzero, hlisted, hone]

/-- The loop of `_gtp_update_teid` adds an identifier that was not seen before, if there is a
place for it. -/
theorem addTeid_teidTable (teids : List UInt32) (teid : UInt32) :
    addTeid teid (teidTable (firstSeen teids)) = teidTable (firstSeen (teids ++ [teid])) := by
  have hnonzero := notMem_take_firstSeen teids maxNbTeid
  rw [firstSeen_concat, teidTable]
  generalize firstSeen teids = known at hnonzero ⊢
  by_cases hfull : maxNbTeid ≤ known.length
  · -- every place is taken
    have hnone : maxNbTeid - known.length = 0 := by omega
    have hkept : addTeid teid (known.take maxNbTeid ++ []) = known.take maxNbTeid := by
      by_cases hlisted : teid ∈ known.take maxNbTeid
      · rw [addTeid_of_mem hlisted _ hnonzero, List.append_nil]
      · rw [addTeid_of_notMem hlisted _ hnonzero, addTeid, List.append_nil]
    rw [hnone, List.replicate_zero, hkept]
    split_ifs
    · rw [teidTable, hnone, List.replicate_zero, List.append_nil]
    · rw [teidTable, List.take_append_of_le_length hfull, List.length_append,
        show maxNbTeid - (known.length + [teid].length) = 0 by omega, List.replicate_zero,
        List.append_nil]
  · have hshort : known.take maxNbTeid = known := List.take_of_length_le (by omega)
    have hplaces : maxNbTeid - known.length = maxNbTeid - (known.length + 1) + 1 := by omega
    rw [hshort] at hnonzero ⊢
    split_ifs with hseen
    · rw [teidTable, hshort]
      by_cases hlisted : teid ∈ known
      · exact addTeid_of_mem hlisted _ hnonzero
      · -- a 0 is written over the first 0
        rw [addTeid_of_notMem hlisted _ hnonzero, hplaces, addTeid_replicate_zero,
          hseen.resolve_right hlisted, List.replicate_succ]
    · rw [not_or] at hseen
      rw [addTeid_of_notMem hseen.2 _ hnonzero, hplaces, addTeid_replicate_zero, teidTable,
        List.take_of_length_le (by rw [List.length_append, List.length_singleton]; omega),
        List.length_append, List.length_singleton, List.append_assoc, List.singleton_append]

theorem updateIp_teids (gtp : GtpStat) (ip : OuterIp) : (gtp.updateIp ip).teids = gtp.teids := by
  rw [GtpStat.updateIp]
  split_ifs <;> rfl

theorem packets_concat (packets : List (OuterIp × Option UInt32))
    (seen : OuterIp × Option UInt32) :
    GtpStat.packets (packets ++ [seen]) = (GtpStat.packets packets).packet seen := by
  rw [GtpStat.packets, List.foldl_append]
  rfl

/-- The handler of `ip.src` allocates the structure with the first packet of a session, and
goes on with it at each of the others. -/
theorem gtpIpSrcHandle_packets {stat : SessionStat} {packets : List (OuterIp × Option UInt32)}
    (held : stat.apps = none ∧ packets = [] ∨
      stat.apps = some (.gtp (GtpStat.packets packets)))
    (outer : OuterIp) (teid : Option UInt32) :
    ∃ after : SessionStat, gtpIpSrcHandle (some stat) outer teid = .ok (some after) ∧
      after.apps = some (.gtp (GtpStat.packets (packets ++ [(outer, teid)]))) := by
  rcases held with ⟨hnone, rfl⟩ | hgtp
  · simp only [gtpIpSrcHandle, getGtpSessionData, hnone]
    exact ⟨_, rfl, rfl⟩
  · rw [packets_concat]
    simp only [gtpIpSrcHandle, getGtpSessionData, hgtp]
    exact ⟨_, rfl, rfl⟩

/-- After any packets the array holds the identifiers that were seen first. -/
theorem packets_teids (packets : List (OuterIp × Option UInt32)) :
    (GtpStat.packets packets).teids = teidTable (firstSeen (packets.filterMap Prod.snd)) := by
  induction packets using List.reverseRecOn with
  | nil => rfl
  | append_singleton packets seen ih =>
      rw [packets_concat, List.filterMap_append, GtpStat.packet]
      cases hteid : seen.2 with
      | none =>
          rw [GtpStat.updateTeid, updateIp_teids, ih, List.filterMap_cons, hteid,
            List.filterMap_nil, List.append_nil]
      | some teid =>
          show addTeid teid ((GtpStat.packets packets).updateIp seen.1).teids = _
          rw [updateIp_teids, ih, List.filterMap_cons, hteid, List.filterMap_nil,
            addTeid_teidTable]

/-! ## The printed part -/

/-- What stands in front of the first 0 of the array. -/
theorem listedTeids_teidTable (nonzero : 0 ∉ known.take maxNbTeid) :
    listedTeids (teidTable known) = known.take maxNbTeid := by
  have hall : ∀ teid ∈ known.take maxNbTeid, decide (teid ≠ 0) = true := by
    intro teid listed
    rw [decide_eq_true_iff]
    rintro rfl
    exact nonzero listed
  rw [listedTeids, teidTable, List.takeWhile_append_of_pos hall]
  simp

theorem plain_gtpText (srcStr dstStr : CString) (teids : List UInt32) :
    (0 : UInt8) ∉ gtpText srcStr dstStr teids := by
  have hdecimals : (0 : UInt8) ∉ decimals 44 (teids.map UInt32.toNat) :=
    notMem_decimals rfl (by decide) _
  simp [gtpText, Field.full, srcStr.plain, dstStr.plain, hdecimals]

/-- The array of a session holds the first identifiers in the order in which they were seen,
and the report of the session lists these. -/
theorem printMessage_gtp (printer : AddressPrinter) (packets : List (OuterIp × Option UInt32))
    (build : Build) (info : SessionInfo) (report : SessionReport) (message : ReportArray)
    (overGtp : report.appType = .gtp)
    (held : report.app = some (.gtp (GtpStat.packets packets))) :
    let seen := firstSeen (packets.filterMap Prod.snd)
    (GtpStat.packets packets).teids =
        seen.take maxNbTeid ++ List.replicate (maxNbTeid - seen.length) 0 ∧
      ∃ srcStr dstStr after,
        printMessage printer build info report message = .ok after ∧
        loadString after 0 = .ok (joined [44] (baseFields info report) ++
          44 :: gtpText srcStr dstStr (seen.take maxNbTeid)) := by
  refine ⟨packets_teids packets, ?_⟩
  have hnonzero := notMem_take_firstSeen (packets.filterMap Prod.snd) maxNbTeid
  rcases ipStrings_short printer (GtpStat.packets packets).ip with
    ⟨srcStr, dstStr, hstrings, hsrc, hdst⟩
  rcases @base_eq info report message with ⟨rest, hbase, hlength, hroom⟩
  have hsize : maxLengthReportMessage = 3000 := rfl
  rcases printTeids_eq (GtpStat.packets packets) hsrc hdst (show 200 ≤ rest.length by omega)
    (by omega) with ⟨byte, rest', hteids, _⟩
  rw [packets_teids, listedTeids_teidTable hnonzero] at hteids
  have hplain : (0 : UInt8) ∉ joined [44] (baseFields info report) :=
    plain_joined (by decide) fun field listed => (printable_baseFields field listed).2
  have hpart : printAppPart printer build info report rest =
      printTeids (GtpStat.packets packets) srcStr dstStr rest := by
    simp only [printAppPart, overGtp, held, printGtpReport, hstrings]
    rfl
  have hmessage := printMessage_of_part (by rw [overGtp]; decide) hbase (hpart.trans hteids)
  have htext := plain_gtpText srcStr dstStr
    ((firstSeen (packets.filterMap Prod.snd)).take maxNbTeid)
  refine ⟨srcStr, dstStr, joined [44] (baseFields info report) ++ 44 :: (gtpText srcStr dstStr
    ((firstSeen (packets.filterMap Prod.snd)).take maxNbTeid) ++ 0 :: 0 :: rest'), ?_, ?_⟩
  all_goals
    generalize joined [44] (baseFields info report) = base at hplain hmessage ⊢
    generalize gtpText srcStr dstStr _ = text at hmessage htext ⊢
  · -- the last NUL of the message stands behind the one of the part
    have hclose := store_append_append (base ++ [44]) (text ++ [0]) rest' byte 0
    simp only [List.length_append, List.length_singleton, List.append_assoc,
      List.singleton_append] at hclose
    rw [hmessage, hclose, mapError_ok]
  · have hread := @loadString_front (base ++ 44 :: text) (by simp [hplain, htext]) (0 :: rest')
    rw [← hread]
    simp only [List.append_assoc, List.cons_append]

/-- Two tunnels, one of them seen twice, and a packet with the identifier 0. -/
def sampleTunnels : List (OuterIp × Option UInt32) :=
  [(.v4 1 2, some 5), (.v4 1 2, some 0), (.v4 3 4, some 7), (.v4 1 2, none), (.v4 1 2, some 5)]

def sampleGtpReport : SessionReport where
  volumes := ⟨300, 200, 100⟩
  payload := ⟨30, 20, 10⟩
  packets := ⟨3, 2, 1⟩
  qos := none
  appType := .gtp
  app := some (.gtp (GtpStat.packets sampleTunnels))

theorem printMessage_gtp_two :
    firstSeen (sampleTunnels.filterMap Prod.snd) = [5, 7] ∧
    (GtpStat.packets sampleTunnels).teids = [5, 7] ++ List.replicate 4 0 ∧
      ∃ srcStr dstStr after,
        printMessage samplePrinter ⟨false, false, false, false, false, false, false⟩ sampleInfo
          sampleGtpReport
          ⟨List.replicate 3000 0, List.length_replicate⟩ = .ok after ∧
        loadString after 0 = .ok (joined [44] (baseFields sampleInfo sampleGtpReport) ++
          44 :: gtpText srcStr dstStr [5, 7]) :=
  ⟨rfl, printMessage_gtp _ sampleTunnels _ sampleInfo sampleGtpReport _ rfl rfl⟩

end MmtProbe.Dpi
