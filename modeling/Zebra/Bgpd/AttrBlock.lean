import Zebra.Bgpd.AttrBounds

namespace Zebra.Bgpd
open Base Reader List AttrType
section
variable (data : List Octet)

/-- The header that the octets at `pos` make. -/
def headerAt (pos : Nat) : AttrHeader where
  flag := field data pos 1
  type := field data (pos + 1) 1
  length := if checkFlag (field data pos 1) attrFlagExtlen then (field data (pos + 2) 2).toNat
    else (field data (pos + 2) 1).toNat
  startp := pos

theorem headerAt_length_lt (pos : Nat) : (headerAt data pos).length < 2 ^ 16 := by
  simp only [headerAt]
  split
  · exact (field data (pos + 2) 2).isLt
  · exact lt_trans (field data (pos + 2) 1).isLt (by decide)

theorem headerLength_ge (flag : Octet) : 3 ≤ headerLength flag := by
  unfold headerLength
  split <;> decide

theorem headerAt_value (pos : Nat) :
    (headerAt data pos).value = pos + headerLength (field data pos 1) := rfl

/-- The accesses to a header, the last one first. -/
def headerAccesses (pos lo hi : Nat) : List Access :=
  [⟨pos + 2, headerLength (field data pos 1) - 2, lo, hi⟩, ⟨pos + 1, 1, lo, hi⟩, ⟨pos, 1, lo, hi⟩]

theorem run_readLength (flag : Octet) (data : List Octet) (cursor : Cursor Refs) :
    (readLength flag).run data cursor =
      (.ok (if checkFlag flag attrFlagExtlen then (field data cursor.getp 2).toNat
        else (field data cursor.getp 1).toNat), { cursor with
        getp := cursor.getp + (headerLength flag - 2)
        accesses :=
          ⟨cursor.getp, headerLength flag - 2, cursor.lo, cursor.hi⟩ :: cursor.accesses }) := by
  unfold readLength headerLength
  split <;> rfl

theorem run_readHeader (cursor : Cursor Refs) :
    readHeader.run data cursor = (.ok (headerAt data cursor.getp), { cursor with
      getp := (headerAt data cursor.getp).value
      accesses := headerAccesses data cursor.getp cursor.lo cursor.hi ++ cursor.accesses }) := by
  have width : (headerAt data cursor.getp).value =
      cursor.getp + 1 + 1 + (headerLength (field data cursor.getp 1) - 2) := by
    have least := headerLength_ge (field data cursor.getp 1)
    rw [headerAt_value]
    omega
  unfold readHeader
  rw [run_bind_ok run_getp, run_bind_ok (run_number 1), run_bind_ok (run_number 1),
    run_bind_ok (run_readLength ..), width]
  rfl

/-- The cursor between two attributes. -/
structure Between (start endp : Nat) (cursor : Cursor Refs) : Prop where
  lo : cursor.lo = start
  hi : cursor.hi = endp
  after : start ≤ cursor.getp

theorem headerAccesses_good {start endp cursor} (between : Between start endp cursor) :
    (∀ access ∈ headerAccesses data cursor.getp cursor.lo cursor.hi,
      WithinBlock start endp access) ↔
      (headerAt data cursor.getp).value ≤ endp := by
  have width := headerLength_ge (field data cursor.getp 1)
  have after := between.after
  simp only [headerAccesses, forall_mem_cons, not_mem_nil, IsEmpty.forall_iff, WithinBlock,
    Access.Inside, between.lo, between.hi, headerAt_value]
  constructor
  · omega
  · intro room
    refine ⟨?_, ?_, ?_, fun _ => trivial⟩ <;> omega

end

/-- What the octets at `pos` need for the round of the loop there to stay inside: a
whole header and, if the value is looked at, a whole value. With less than two octets
left nothing is read. -/
def Legible (bgp : Bgp) (peer : Peer) (stored : Aspath → Bool) (data : List Octet) (endp : Nat)
    (parsed : Parsed) (pos : Nat) : Prop :=
  endp - pos < attrMinLen ∨
    (headerAt data pos).value ≤ endp ∧
      ((headerAt data pos).type ∈ parsed.seen ∨
        endp < (headerAt data pos).value + (headerAt data pos).length ∨
        ValueWhole bgp peer stored data (headerAt data pos))

section Loop
variable {start endp : Nat} {cursor : Cursor Refs} {data : List Octet} {bgp : Bgp} {peer : Peer}
  {parsed : Parsed}

theorem finishAttr_silent (start endp : Nat) (header : AttrHeader) (parsed : Parsed)
    (data : List Octet) (cursor : Cursor Refs) :
    ((finishAttr start endp header parsed).run data cursor).2.accesses = cursor.accesses := by
  unfold finishAttr
  rw [run_bind_ok run_getp]
  split <;> rfl

variable {header : AttrHeader} {after : Cursor Refs} {result : Parsed}

theorem attrRound_clean (after : start ≤ header.startp) (place : cursor.getp = header.value)
    (small : header.length < 2 ^ 16) :
    Needs start endp (attrRound bgp peer start endp parsed header) data cursor
      (header.type ∈ parsed.seen ∨ endp < header.value + header.length ∨
        ValueWhole bgp peer cursor.world.stored data header) := by
  unfold attrRound
  split
  · rename_i twice
    exact (notify_neutral _).trans (and_iff_left (Or.inl twice)).symm
  · rename_i once
    split
    · rename_i long
      exact (notify_neutral _).trans (and_iff_left (Or.inr (Or.inl long))).symm
    · rename_i fits
      have total : header.startp + header.total = header.value + header.length := by
        rw [AttrHeader.total, AttrHeader.value]
        omega
      have framed : Framed start endp header
          { cursor with lo := header.startp, hi := header.value + header.length } :=
        ⟨rfl, total.symm, after, by omega⟩
      rw [Needs, clean_bind_ok (run_within ..), clean_bind_silent _ fun _ _ => finishAttr_silent ..]
      refine (parseValue_clean bgp peer framed place small _).trans ?_
      simp only [once, fits, false_or]
      exact and_congr_left fun _ => holds_congr rfl

theorem parseAttr_clean (between : Between start endp cursor) :
    Needs start endp (parseAttr bgp peer start endp parsed) data cursor
      (Legible bgp peer cursor.world.stored data endp parsed cursor.getp) := by
  unfold parseAttr Legible
  rw [Needs, clean_bind_ok run_getp]
  split
  · rename_i short
    exact (notify_neutral _).trans (and_iff_left (Or.inl short)).symm
  · rename_i enough
    have header := headerAccesses_good data between
    refine (clean_bind_ok (run_readHeader ..)).trans
      ((attrRound_clean ?_ rfl (headerAt_length_lt ..)).trans ?_)
    · exact between.after
    · simp only [Holds, forall_mem_append, header, enough, false_or]
      rw [and_assoc]
      exact and_left_comm

theorem skipSnpas_advances (count : Nat) : (skipSnpas count).Advances := by
  induction count with
  | zero => exact advances_pure ()
  | succ count ih =>
    exact (advances_number 1).bind fun _ => (advances_forward _).bind fun _ => ih

theorem readNexthop_advances (attr : Attr) (nexthopLen : Octet) :
    (readNexthop attr nexthopLen).Advances := by
  unfold readNexthop
  split
  · exact (advances_number 4).bind fun _ => advances_pure _
  · split
    · exact (advances_number 4).bind fun _ => (advances_number 4).bind fun _ =>
        (advances_number 4).bind fun _ => advances_pure _
    · split
      · exact (advances_number 16).bind fun _ => advances_pure _
      · split
        · exact (advances_number 16).bind fun _ => (advances_number 16).bind fun _ =>
            advances_pure _
        · exact advances_fail _

theorem takeNlri_ok {lim afi safi nlri}
    (taken : (takeNlri lim afi safi).run data cursor = (.ok nlri, after)) :
    nlri.nlri = cursor.getp ∧ after.getp = nlri.nlri + nlri.length := by
  unfold takeNlri at taken
  rw [run_bind_ok run_getp] at taken
  obtain ⟨_, middle, checked, rest⟩ := run_bind_eq_ok taken
  obtain ⟨result, accesses, ran⟩ := mpNlriCheck_run afi safi cursor.getp
    ((((lim : Int) - cursor.getp) % 2 ^ 16).toNat) data cursor
  rw [ran] at checked
  cases checked
  cases rest
  exact ⟨rfl, rfl⟩

theorem bgpMpReachParse_ok {attr attrNew nlri}
    (parses : (bgpMpReachParse header attr).run data cursor = (.ok (attrNew, nlri), after)) :
    cursor.getp ≤ nlri.nlri ∧ after.getp = nlri.nlri + nlri.length := by
  unfold bgpMpReachParse at parses
  rw [run_bind_ok run_getp, run_bind_ok (run_number 2), run_bind_ok (run_number 1),
    run_bind_ok (run_number 1)] at parses
  obtain ⟨attr, afterHop, hop, parses⟩ := run_bind_eq_ok parses
  have hopMoved :=
    readNexthop_advances _ _ data _ |>.trans_eq (congrArg (fun out => out.2.getp) hop)
  rw [run_bind_ok (run_number 1)] at parses
  obtain ⟨_, afterSnpas, snpas, parses⟩ := run_bind_eq_ok parses
  have snpasMoved :=
    skipSnpas_advances _ data _ |>.trans_eq (congrArg (fun out => out.2.getp) snpas)
  obtain ⟨nlri', afterNlri, taken, done⟩ := run_bind_eq_ok parses
  cases done
  obtain ⟨place, moved⟩ := takeNlri_ok taken
  dsimp only at hopMoved snpasMoved
  omega

theorem bgpMpUnreachParse_ok {nlri}
    (parses : (bgpMpUnreachParse header).run data cursor = (.ok nlri, after)) :
    cursor.getp ≤ nlri.nlri ∧ after.getp = nlri.nlri + nlri.length := by
  unfold bgpMpUnreachParse at parses
  obtain ⟨place, moved⟩ := takeNlri_ok parses
  dsimp only at place
  omega

/-- The octets handed on are the end of the attribute. -/
def Handed (header : AttrHeader) (nlri : Nlri) : Prop :=
  header.value ≤ nlri.nlri ∧ nlri.nlri + nlri.length = header.value + header.length

/-- What one value leaves of the NLRI found before. -/
structure Continues (header : AttrHeader) (parsed after : Parsed) (getp getpAfter : Nat) :
    Prop where
  seen : after.seen = parsed.seen
  update : (header.type = 14 ∧ getp ≤ after.mpUpdate.nlri ∧
    getpAfter = after.mpUpdate.nlri + after.mpUpdate.length) ∨
      header.type ≠ 14 ∧ after.mpUpdate = parsed.mpUpdate
  withdraw : (header.type = 15 ∧ getp ≤ after.mpWithdraw.nlri ∧
    getpAfter = after.mpWithdraw.nlri + after.mpWithdraw.length) ∨
    header.type ≠ 15 ∧ after.mpWithdraw = parsed.mpWithdraw

theorem AttrType.code_of_ofCode {type known} (found : ofCode type = some known) :
    type = BitVec.ofNat 8 known.code := by
  apply BitVec.eq_of_toNat_eq
  unfold ofCode at found
  split at found <;> first | (cases found; simp only [*]; rfl) | cases found

theorem Continues.of_attr {reader : AttrReader Attr}
    (parses : (reader >>= fun attr => pure { parsed with attr := attr }).run data cursor =
      (.ok result, after))
    (notReach : header.type ≠ 14) (notUnreach : header.type ≠ 15) :
    Continues header parsed result cursor.getp after.getp := by
  obtain ⟨attr, middle, -, done⟩ := run_bind_eq_ok parses
  cases done
  exact ⟨rfl, Or.inr ⟨notReach, rfl⟩, Or.inr ⟨notUnreach, rfl⟩⟩

theorem parseValue_ok
    (parses : (parseValue bgp peer header parsed).run data cursor = (.ok result, after)) :
    Continues header parsed result cursor.getp after.getp := by
  cases found : ofCode header.type with
  | none =>
    simp only [parseValue, found] at parses
    exact .of_attr parses (fun reach => by rw [reach] at found; cases found)
      fun unreach => by rw [unreach] at found; cases found
  | some type =>
    have code := code_of_ofCode found
    simp only [parseValue, found] at parses
    cases type
    case mpReachNlri =>
      obtain ⟨⟨attr, nlri⟩, middle, ran, done⟩ := run_bind_eq_ok parses
      cases done
      exact ⟨rfl, Or.inl ⟨code, bgpMpReachParse_ok ran⟩, Or.inr ⟨by rw [code]; decide, rfl⟩⟩
    case mpUnreachNlri =>
      obtain ⟨nlri, middle, ran, done⟩ := run_bind_eq_ok parses
      cases done
      exact ⟨rfl, Or.inr ⟨by rw [code]; decide, rfl⟩, Or.inl ⟨code, bgpMpUnreachParse_ok ran⟩⟩
    all_goals exact .of_attr parses (by rw [code]; decide) (by rw [code]; decide)

/-- One accepted round. -/
structure Round (start endp : Nat) (header : AttrHeader) (parsed result : Parsed)
    (after : Cursor Refs) : Prop where
  fits : header.value + header.length ≤ endp
  getp : after.getp = header.value + header.length
  limits : after.lo = start ∧ after.hi = endp
  fresh : header.type ∉ parsed.seen
  seen : result.seen = header.type :: parsed.seen
  update : (header.type = 14 ∧ Handed header result.mpUpdate) ∨
    header.type ≠ 14 ∧ result.mpUpdate = parsed.mpUpdate
  withdraw : (header.type = 15 ∧ Handed header result.mpWithdraw) ∨
    header.type ≠ 15 ∧ result.mpWithdraw = parsed.mpWithdraw

section
variable (parses : (parseAttr bgp peer start endp parsed).run data cursor = (.ok result, after))
include parses

theorem parseAttr_value :
    ∃ before middle, (parseValue bgp peer (headerAt data cursor.getp)
        { parsed with seen := (headerAt data cursor.getp).type :: parsed.seen }).run data before =
        (.ok result, middle) ∧
      before.getp = (headerAt data cursor.getp).value ∧ before.world = cursor.world ∧
      after = { middle with lo := start, hi := endp } ∧
        (headerAt data cursor.getp).type ∉ parsed.seen ∧
      middle.getp = (headerAt data cursor.getp).value + (headerAt data cursor.getp).length ∧
        middle.getp ≤ endp := by
  unfold parseAttr at parses
  rw [run_bind_ok run_getp] at parses
  split at parses
  · cases parses
  · rw [run_bind_ok (run_readHeader ..)] at parses
    unfold attrRound at parses
    split at parses
    · cases parses
    · rename_i fresh
      split at parses
      · cases parses
      · rename_i fits
        rw [run_bind_ok (run_within ..)] at parses
        obtain ⟨parsedValue, middle, value, finished⟩ := run_bind_eq_ok parses
        unfold finishAttr at finished
        rw [run_bind_ok run_getp] at finished
        split at finished
        · cases finished
        · rename_i ends
          cases finished
          rw [not_not] at ends
          exact ⟨_, middle, value, rfl, rfl, rfl, fresh, ends, by omega⟩

theorem parseAttr_ok : Round start endp (headerAt data cursor.getp) parsed result after := by
  obtain ⟨before, middle, value, place, -, rfl, fresh, ends, fits⟩ := parseAttr_value parses
  have continues := parseValue_ok value
  refine ⟨by omega, ends, ⟨rfl, rfl⟩, fresh, continues.seen, ?_, ?_⟩
  · exact continues.update.imp_left fun ⟨type, place, moved⟩ => ⟨type, by omega, by omega⟩
  · exact continues.withdraw.imp_left fun ⟨type, place, moved⟩ => ⟨type, by omega, by omega⟩

end

/-- Every round that the loop gets to is legible. -/
def LegibleFrom (bgp : Bgp) (peer : Peer) (data : List Octet) (start endp : Nat) :
    Nat → Parsed → Cursor Refs → Prop
  | 0, _, _ => True
  | fuel + 1, parsed, cursor =>
    cursor.getp < endp → Legible bgp peer cursor.world.stored data endp parsed cursor.getp ∧
      match (parseAttr bgp peer start endp parsed).run data cursor with
      | (.ok parsed, cursor) => LegibleFrom bgp peer data start endp fuel parsed cursor
      | (.error _, _) => True

theorem parseAttr_between (between : Between start endp cursor)
    (parses : (parseAttr bgp peer start endp parsed).run data cursor = (.ok result, after)) :
    Between start endp after ∧ cursor.getp + 3 ≤ after.getp ∧ after.getp ≤ endp := by
  have round := parseAttr_ok parses
  have least := headerLength_ge (field data cursor.getp 1)
  have place := round.getp
  rw [headerAt_value] at place
  refine ⟨⟨round.limits.1, round.limits.2, ?_⟩, by omega, round.getp ▸ round.fits⟩
  have after := between.after
  omega

theorem parseLoop_clean (fuel : Nat) (between : Between start endp cursor) :
    Needs start endp (parseLoop bgp peer start endp fuel parsed) data cursor
      (LegibleFrom bgp peer data start endp fuel parsed cursor) := by
  induction fuel generalizing parsed cursor with
  | zero => exact (and_iff_left trivial).symm
  | succ fuel ih =>
    unfold parseLoop LegibleFrom
    rw [Needs, clean_bind_ok run_getp]
    split
    · rename_i more
      have round : Needs start endp (parseAttr bgp peer start endp parsed) data cursor _ :=
        parseAttr_clean between
      cases ran : (parseAttr bgp peer start endp parsed).run data cursor with
      | mk outcome after =>
        rw [Needs, Clean, ran] at round
        cases outcome with
        | error failure =>
          rw [Clean, run_bind_error ran]
          refine round.trans (and_congr_right fun _ => ?_)
          simp only [more, forall_const, and_true]
        | ok result =>
          refine (clean_bind_ok ran).trans ((ih (parseAttr_between between ran).1).trans ?_)
          rw [round]
          simp only [more, forall_const, and_assoc]
    · rename_i done
      refine (pure_neutral _).trans (and_iff_left fun more => absurd more done).symm

theorem parseLoop_terminates (fuel more : Nat) (enough : endp ≤ cursor.getp + fuel)
    (between : Between start endp cursor) :
    (parseLoop bgp peer start endp (fuel + more) parsed).run data cursor =
      (parseLoop bgp peer start endp fuel parsed).run data cursor := by
  induction fuel generalizing parsed cursor with
  | zero =>
    cases more with
    | zero => rfl
    | succ more =>
      have done : ¬ cursor.getp < endp := by omega
      rw [zero_add, parseLoop, parseLoop, run_bind_ok run_getp, if_neg done]
  | succ fuel ih =>
    rw [Nat.succ_add, parseLoop, parseLoop, run_bind_ok run_getp, run_bind_ok run_getp]
    split
    · cases ran : (parseAttr bgp peer start endp parsed).run data cursor with
      | mk outcome after =>
        cases outcome with
        | error failure => rw [run_bind_error ran, run_bind_error ran]
        | ok result =>
          obtain ⟨afterBetween, moved, -⟩ := parseAttr_between between ran
          rw [run_bind_ok ran, run_bind_ok ran, ih (by omega) afterBetween]
    · rfl

/-- The headers of a block, each found where the value before it ends. -/
def attrHeaders (data : List Octet) (endp : Nat) : Nat → Nat → List AttrHeader
  | 0, _ => []
  | fuel + 1, pos =>
    if pos < endp then
      headerAt data pos ::
        attrHeaders data endp fuel ((headerAt data pos).value + (headerAt data pos).length)
    else []

/-- What the loop has made of the headers so far. -/
structure Accepts (headers : List AttrHeader) (parsed : Parsed) : Prop where
  seen : parsed.seen = (headers.map AttrHeader.type).reverse
  once : (headers.map AttrHeader.type).Nodup
  update : ∀ header ∈ headers, header.type = 14 → Handed header parsed.mpUpdate
  withdraw : ∀ header ∈ headers, header.type = 15 → Handed header parsed.mpWithdraw

theorem Accepts.round {headers} (accepts : Accepts headers parsed)
    (round : Round start endp header parsed result after) :
    Accepts (headers ++ [header]) result := by
  have fresh : header.type ∉ headers.map AttrHeader.type := by
    have notSeen := round.fresh
    rwa [accepts.seen, mem_reverse] at notSeen
  refine ⟨?_, ?_, ?_, ?_⟩
  · rw [round.seen, accepts.seen]
    simp
  · rw [map_append, nodup_append]
    refine ⟨accepts.once, nodup_singleton _, ?_⟩
    rintro type typeIn other otherIn rfl
    exact fresh (mem_singleton.mp otherIn ▸ typeIn)
  · intro other otherIn reach
    rcases mem_append.mp otherIn with earlier | last
    · rcases round.update with ⟨type, -⟩ | ⟨-, same⟩
      · exact absurd (mem_map_of_mem earlier) (reach ▸ type ▸ fresh)
      · rw [same]
        exact accepts.update other earlier reach
    · cases mem_singleton.mp last
      rcases round.update with ⟨-, handed⟩ | ⟨type, -⟩
      · exact handed
      · exact absurd reach type
  · intro other otherIn unreach
    rcases mem_append.mp otherIn with earlier | last
    · rcases round.withdraw with ⟨type, -⟩ | ⟨-, same⟩
      · exact absurd (mem_map_of_mem earlier) (unreach ▸ type ▸ fresh)
      · rw [same]
        exact accepts.withdraw other earlier unreach
    · cases mem_singleton.mp last
      rcases round.withdraw with ⟨-, handed⟩ | ⟨type, -⟩
      · exact handed
      · exact absurd unreach type

/-- What every accepted round keeps, for the headers so far, the loop keeps. -/
theorem parseLoop_keeps (Holds : List AttrHeader → Parsed → Cursor Refs → Prop)
    (step : ∀ {headers parsed cursor result after}, Holds headers parsed cursor →
      (parseAttr bgp peer start endp parsed).run data cursor = (.ok result, after) →
        Holds (headers ++ [headerAt data cursor.getp]) result after)
    (fuel : Nat) {headers} (holds : Holds headers parsed cursor)
    (parses : (parseLoop bgp peer start endp fuel parsed).run data cursor = (.ok result, after)) :
    Holds (headers ++ attrHeaders data endp fuel cursor.getp) result after := by
  induction fuel generalizing parsed cursor headers with
  | zero =>
    cases parses
    rwa [attrHeaders, append_nil]
  | succ fuel ih =>
    unfold parseLoop at parses
    rw [run_bind_ok run_getp] at parses
    rw [attrHeaders]
    split at parses
    · rename_i more
      obtain ⟨middle, afterRound, ran, rest⟩ := run_bind_eq_ok parses
      rw [if_pos more, ← (parseAttr_ok ran).getp, append_cons]
      exact ih (step holds ran) rest
    · rename_i done
      cases parses
      rwa [if_neg done, append_nil]

theorem parseLoop_ok (fuel : Nat) {headers} (accepts : Accepts headers parsed)
    (parses : (parseLoop bgp peer start endp fuel parsed).run data cursor = (.ok result, after)) :
    Accepts (headers ++ attrHeaders data endp fuel cursor.getp) result :=
  parseLoop_keeps (fun headers parsed _ => Accepts headers parsed)
    (fun accepts ran => accepts.round (parseAttr_ok ran)) fuel accepts parses

end Loop

/-- The cursor before the block. -/
def blockCursor (start size : Nat) (refs : Refs) : Cursor Refs where
  getp := start
  lo := start
  hi := start + size
  world := refs

theorem blockCursor_between (start size : Nat) (refs : Refs) :
    Between start (start + size) (blockCursor start size refs) :=
  ⟨rfl, rfl, le_rfl⟩

/-- `bgp_attr_parse` on the block of `size` octets at `start`: every access is inside
the block and inside the attribute it is for, the loop ends, and in an accepted block
no type comes twice and the NLRI handed on ends where its attribute ends. -/
structure StaysInBounds (bgp : Bgp) (peer : Peer) (data : List Octet) (start size : Nat)
    (refs : Refs) : Prop where
  inside : ∀ access ∈
    ((bgpAttrParse bgp peer size).run data (blockCursor start size refs)).2.accesses,
    WithinBlock start (start + size) access
  terminates : ∀ more, (parseLoop bgp peer start (start + size) (size + more) {}).run data
      (blockCursor start size refs) =
    (parseLoop bgp peer start (start + size) size {}).run data (blockCursor start size refs)
  accepts : ∀ parsed, ((bgpAttrParse bgp peer size).run data (blockCursor start size refs)).1 =
    .ok parsed →
    Accepts (attrHeaders data (start + size) size start) parsed

theorem finishBlock_silent (endp : Nat) (parsed : Parsed) (data : List Octet)
    (cursor : Cursor Refs) :
    ((finishBlock endp parsed).run data cursor).2.accesses = cursor.accesses := by
  unfold finishBlock
  rw [run_bind_ok run_getp]
  split
  · rfl
  · split <;> rfl

theorem finishBlock_ok {endp parsed result data cursor after}
    (finished : (finishBlock endp parsed).run data cursor = (.ok result, after)) :
    result = parsed := by
  unfold finishBlock at finished
  rw [run_bind_ok run_getp] at finished
  split at finished
  · cases finished
  · split at finished <;> cases finished <;> rfl

theorem accepts_nil : Accepts [] {} :=
  ⟨rfl, nodup_nil, by simp, by simp⟩

theorem bgpAttrParse_run (bgp : Bgp) (peer : Peer) (data : List Octet) (start size : Nat)
    (refs : Refs) :
    (bgpAttrParse bgp peer size).run data (blockCursor start size refs) =
      (parseLoop bgp peer start (start + size) size {} >>= finishBlock (start + size)).run data
        (blockCursor start size refs) := rfl

/-- The parser stays inside exactly when every attribute it gets to has a whole
header and, where the value is looked at, a whole value. -/
theorem bgpAttrParse_stays_in_bounds_iff (bgp : Bgp) (peer : Peer) (data : List Octet)
    (start size : Nat) (refs : Refs) :
    StaysInBounds bgp peer data start size refs ↔
      LegibleFrom bgp peer data start (start + size) size {} (blockCursor start size refs) := by
  have between := blockCursor_between start size refs
  have inside : Holds (WithinBlock start (start + size))
      ((bgpAttrParse bgp peer size).run data (blockCursor start size refs)).2 ↔
      LegibleFrom bgp peer data start (start + size) size {} (blockCursor start size refs) := by
    rw [bgpAttrParse_run, ← Clean, clean_bind_silent _ fun _ _ => finishBlock_silent ..]
    exact (parseLoop_clean _ between).trans (and_iff_right fun access member => by cases member)
  refine ⟨fun bounds => inside.mp bounds.inside, fun legible => ⟨inside.mpr legible, ?_, ?_⟩⟩
  · exact fun more => parseLoop_terminates size more le_rfl between
  · intro parsed accepted
    rw [bgpAttrParse_run] at accepted
    obtain ⟨result, after, looped, finished⟩ := run_bind_eq_ok (Prod.ext accepted rfl)
    rw [finishBlock_ok finished]
    exact parseLoop_ok size accepts_nil looped

namespace Truncated

def bgp : Bgp where
  as := 65000
  peer := fun _ => { as := 100, localAs := 65000, remoteId := 1, suRemote := .inet 1 }
  peerSelf := 9

end Truncated

/-- A block of two octets: the length of the attribute is read behind its end. -/
theorem bgpAttrParse_reads_behind :
    ¬ StaysInBounds Truncated.bgp (Truncated.bgp.peer 0) [0x40, 1, 0] 0 2 (fun _ => 0) := by
  intro bounds
  have inside := bounds.inside
  revert inside
  decide

end Zebra.Bgpd
