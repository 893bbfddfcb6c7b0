import KernelModules.Rmnet.Custody

namespace KernelModules.Rmnet

open Data List RmnetFragDescriptor Rmnet

def headerAt (pages : Pages) (skb : SkBuff) (start : Nat) :
    Option (Nat × SkbFrag × List SkbFrag × RmnetMapHeader) :=
  match startFrag skb.frags start 0 with
  | none => none
  | some (skip, frag, later) =>
    match qmapHeader pages skb start skip frag with
    | none => none
    | some maph => if maph.pktLen = 0 then none else some (skip, frag, later, maph)

def frameAt (pages : Pages) (format : IngressDataFormat) (skb : SkBuff) (start : Nat) : Option Nat :=
  match headerAt pages skb start with
  | none => none
  | some (skip, frag, later, maph) =>
    match framePktLen pages format skb start skip frag maph with
    | none => none
    | some pktLen =>
      if pktLen ≤ Extent.total (frag.piece skip (frag.length - skip) :: later) then some pktLen
      else none

def IngressDataFormat.Typed (format : IngressDataFormat) (maph : RmnetMapHeader) : Prop :=
  ¬format.mapCksumv4 ∧ (format.mapCksumv5 ∨ format.coalesce) ∧ ¬maph.cdBit

def HeaderLast (pages : Pages) (format : IngressDataFormat) (skb : SkBuff) (start : Nat) : Prop :=
  ∃ skip frag later maph, headerAt pages skb start = some (skip, frag, later, maph) ∧
    format.Typed maph ∧ start + rmnetMapHeaderSize = skb.len

/-- From `start` on, frame behind frame, the skb ends so. -/
inductive EndsInHeader (pages : Pages) (format : IngressDataFormat) (skb : SkBuff) : Nat → Prop where
  | here {start : Nat} (last : HeaderLast pages format skb start) : EndsInHeader pages format skb start
  | later {start size : Nat} (frame : frameAt pages format skb start = some size)
      (behind : EndsInHeader pages format skb (start + size)) : EndsInHeader pages format skb start

variable {pages : Pages} {format : IngressDataFormat} {skb : SkBuff} {start pool : RmnetFragDescriptorPool}
  {held leaked : List (Nat × Nat)} {sent : List Nat} {list : List RmnetFragDescriptor}
  {place size fuel : Nat} {port : RmnetIngressPort} {ingress : Ingress} {chain : List SkBuff}

theorem headerAt_frag (found : headerAt pages skb place = some (skip, frag, later, maph)) :
    startFrag skb.frags place 0 = some (skip, frag, later) ∧
      qmapHeader pages skb place skip frag = some maph ∧ maph.pktLen ≠ 0 := by
  unfold headerAt at found
  cases lookup : startFrag skb.frags place 0 with
  | none =>
    rw [lookup] at found
    cases found
  | some rest =>
    obtain ⟨skip, frag, later⟩ := rest
    rw [lookup] at found
    dsimp only at found
    cases hdr : qmapHeader pages skb place skip frag with
    | none =>
      rw [hdr] at found
      cases found
    | some maph =>
      rw [hdr] at found
      dsimp only at found
      by_cases empty : maph.pktLen = 0
      · rw [if_pos empty] at found
        cases found
      · rw [if_neg empty] at found
        cases found
        exact ⟨rfl, hdr, empty⟩

theorem startFrag_inside (found : startFrag skb.frags place 0 = some (skip, frag, later)) :
    skip < frag.length ∧ later.length < skb.frags.length ∧ place + (frag.length - skip) ≤ skb.len := by
  have lt : place < Extent.total skb.frags := by
    by_contra beyond
    rw [startFrag_none (by omega)] at found
    cases found
  obtain ⟨_, _, _, lookup, inside, fewer, remaining, _⟩ :=
    @startFrag_some skb.frags place 0 (Nat.zero_le _) (by omega)
  rw [found] at lookup
  cases lookup
  refine ⟨inside, fewer, ?_⟩
  unfold SkBuff.len SkbPart.len
  omega

theorem headerAt_inside (found : headerAt pages skb place = some (skip, frag, later, maph)) : place < skb.len := by
  obtain ⟨inside, _, lt⟩ := startFrag_inside (headerAt_frag found).1
  omega

theorem EndsInHeader.inside (ends : EndsInHeader pages format skb place) : place < skb.len := by
  cases ends with
  | here last =>
    obtain ⟨skip, frag, later, maph, found, _⟩ := last
    exact headerAt_inside found
  | later frame behind =>
    unfold frameAt at frame
    cases found : headerAt pages skb place with
    | none =>
      rw [found] at frame
      cases frame
    | some rest => exact headerAt_inside found

theorem framePktLen_none (found : headerAt pages skb place = some (skip, frag, later, maph)) :
    framePktLen pages format skb place skip frag maph = none ↔
      format.Typed maph ∧ place + rmnetMapHeaderSize = skb.len := by
  obtain ⟨lookup, hdr, _⟩ := headerAt_frag found
  obtain ⟨_, _, inside⟩ := startFrag_inside lookup
  have here : place + rmnetMapHeaderSize ≤ skb.len := by
    unfold qmapHeader at hdr
    split at hdr
    · omega
    · unfold skbCopyBits at hdr
      split at hdr
      · assumption
      · cases hdr
  have missing : qmapType pages skb place skip frag = none ↔ place + rmnetMapHeaderSize = skb.len := by
    unfold qmapType skbCopyBits
    by_cases contiguous : rmnetMapHeaderSize + 1 ≤ frag.length - skip
    · rw [if_pos contiguous]
      exact ⟨fun none => (by cases none), fun last => (by omega)⟩
    · rw [if_neg contiguous]
      split
      · exact ⟨fun none => (by cases none), fun last => (by omega)⟩
      · exact ⟨fun _ => (by omega), fun _ => rfl⟩
  unfold framePktLen
  split
  · rename_i four
    exact ⟨fun none => (by cases none), fun typed => absurd four typed.1.1⟩
  rename_i four
  split
  · rename_i typed
    rw [Option.map_eq_none_iff, missing]
    exact ⟨fun last => ⟨⟨four, typed.1, typed.2⟩, last⟩, fun both => both.2⟩
  · rename_i untyped
    exact ⟨fun none => (by cases none), fun typed => absurd ⟨typed.1.2.1, typed.1.2.2⟩ untyped⟩

theorem framePktLen_pos (found : framePktLen pages format skb place skip frag maph = some size) : 0 < size := by
  unfold framePktLen at found
  split at found
  · cases found
    unfold rmnetMapHeaderSize
    omega
  · split at found
    · obtain ⟨type, _, rfl⟩ := Option.map_eq_some_iff.mp found
      unfold rmnetMapHeaderSize
      omega
    · cases found
      unfold rmnetMapHeaderSize
      omega

inductive Round (pages : Pages) (format : IngressDataFormat) (skb : SkBuff)
    (start : RmnetFragDescriptorPool) (held : List (Nat × Nat)) (sent : List Nat)
    (list : List RmnetFragDescriptor) (place : Nat) :
    Option Nat × List RmnetFragDescriptor × RmnetFragDescriptorPool → Prop where
  | stops (after : RmnetFragDescriptorPool) (kept : Kept start after held sent)
      (seen : start.allocs = [] → frameAt pages format skb place = none ∧ ¬HeaderLast pages format skb place) :
      Round pages format skb start held sent list place (none, list, after)
  | frame (size : Nat) (desc : RmnetFragDescriptor) (after : RmnetFragDescriptorPool)
      (found : frameAt pages format skb place = some size) (positive : 0 < size)
      (whole : ¬HeaderLast pages format skb place) (kept : Kept start after (desc.slip :: held) sent) :
      Round pages format skb start held sent list place (some size, list ++ [desc], after)
  | loses (slip : Nat × Nat) (after : RmnetFragDescriptorPool)
      (last : HeaderLast pages format skb place) (kept : Kept start after (slip :: held) sent) :
      Round pages format skb start held sent list place (none, list, after)

theorem Kept.succeed (kept : Kept start pool held sent) (empty : start.allocs = []) : pool.AllocsSucceed := by
  obtain ⟨count, same⟩ := kept.allocs
  rw [empty, drop_nil] at same
  intro out mem
  rw [same] at mem
  cases mem

theorem getFragDescriptor_len {after : RmnetFragDescriptorPool}
    (got : rmnetGetFragDescriptor pool = (some taken, after)) : taken.len = 0 := by
  unfold rmnetGetFragDescriptor at got
  split at got
  · cases got
    rfl
  · split at got <;> cases got
    rfl

theorem Kept.deaggregateOne (kept : Kept start pool held sent) (enough : skb.frags.length < fuel) :
    ∃ outcome, rmnetFragDeaggregateOne pages format skb fuel list pool place = some outcome ∧
      Round pages format skb start held sent list place outcome := by
  have nothing : headerAt pages skb place = none →
      frameAt pages format skb place = none ∧ ¬HeaderLast pages format skb place := by
    intro absent
    refine ⟨?_, ?_⟩
    · unfold frameAt
      rw [absent]
    · rintro ⟨skip, frag, later, maph, found, _⟩
      rw [absent] at found
      cases found
  unfold rmnetFragDeaggregateOne
  cases lookup : startFrag skb.frags place 0 with
  | none =>
    have absent : headerAt pages skb place = none := by
      unfold headerAt
      rw [lookup]
    exact ⟨_, rfl, .stops _ kept fun _ => nothing absent⟩
  | some rest =>
    obtain ⟨skip, frag, later⟩ := rest
    dsimp only
    cases hdr : qmapHeader pages skb place skip frag with
    | none =>
      have absent : headerAt pages skb place = none := by
        unfold headerAt
        rw [lookup]
        dsimp only
        rw [hdr]
      exact ⟨_, rfl, .stops _ kept fun _ => nothing absent⟩
    | some maph =>
      dsimp only
      by_cases empty : maph.pktLen = 0
      · rw [if_pos empty]
        have absent : headerAt pages skb place = none := by
          unfold headerAt
          rw [lookup]
          dsimp only
          rw [hdr]
          exact if_pos empty
        exact ⟨_, rfl, .stops _ kept fun _ => nothing absent⟩
      · rw [if_neg empty]
        have found : headerAt pages skb place = some (skip, frag, later, maph) := by
          unfold headerAt
          rw [lookup]
          dsimp only
          rw [hdr]
          exact if_neg empty
        cases got : rmnetGetFragDescriptor pool with
        | mk taken reached =>
        have begun := kept.get got
        cases taken with
        | none =>
          refine ⟨_, rfl, .stops _ begun fun none => ?_⟩
          obtain ⟨num, ticket, after, taken, _⟩ := getFragDescriptor_succeeds (kept.succeed none)
          rw [got] at taken
          cases taken
        | some taken =>
          cases known : framePktLen pages format skb place skip frag maph with
          | none =>
            obtain ⟨typed, last⟩ := (framePktLen_none found).mp known
            exact ⟨_, rfl, .loses taken.slip _ ⟨skip, frag, later, maph, found, typed, last⟩ begun⟩
          | some pktLen =>
            obtain ⟨_, fewer, _⟩ := startFrag_inside lookup
            have whole : ¬HeaderLast pages format skb place := by
              rintro ⟨skip, frag, later, maph, same, typed, last⟩
              rw [found] at same
              cases same
              rw [(framePktLen_none found).mpr ⟨typed, last⟩] at known
              cases known
            have back : ∀ {count}, Kept start
                (rmnetRecycleFragDescriptor taken (reached.consumed count)) held sent :=
              fun {count} => (show Kept start (reached.consumed count) (taken.slip :: held) sent
                from begun.consumed).recycle
            dsimp only
            obtain ⟨count, ⟨extra, added, bytes⟩ | ⟨failed, fails⟩⟩ :=
              @addFrameFrags_cases (frag.piece skip (frag.length - skip) :: later)
                fuel { taken with priority := skb.priority } reached pktLen
                (by rw [length_cons]; omega)
            · rw [added]
              dsimp only
              generalize total : Extent.total (frag.piece skip (frag.length - skip) :: later) = rest
                at *
              by_cases complete : pktLen ≤ rest
              · rw [if_neg (by omega)]
                have len := congrArg List.length (bytes fun _ _ => 0)
                rw [Extent.length_contents, length_take, Extent.length_contents, total, Nat.min_eq_left complete] at len
                have size : (append { taken with priority := skb.priority }
                    extra).len = pktLen := by
                  change taken.len + Extent.total extra = pktLen
                  rw [getFragDescriptor_len got, zero_add, len]
                have frame : frameAt pages format skb place = some pktLen := by
                  unfold frameAt
                  rw [found]
                  dsimp only
                  rw [known]
                  rw [total]
                  exact if_pos complete
                refine ⟨_, rfl, ?_⟩
                rw [size]
                exact .frame pktLen _ _ frame (framePktLen_pos known) whole begun.consumed
              · rw [if_pos (by omega)]
                refine ⟨_, rfl, .stops _ back fun _ => ⟨?_, whole⟩⟩
                unfold frameAt
                rw [found]
                dsimp only
                rw [known]
                rw [total]
                exact if_neg complete
            · rw [failed]
              exact ⟨_, rfl, .stops _ back fun none => absurd (begun.succeed none) fails⟩

theorem Kept.deaggregateFrom (kept : Kept start pool (list.map slip ++ held) sent)
    (enough : skb.len - place + skb.frags.length + 1 < fuel) :
    ∃ taken after leaked, deaggregateFrom pages format skb fuel list pool place = some (taken, after) ∧
      Kept start after (taken.map slip ++ (leaked ++ held)) sent ∧ (leaked ≠ [] → EndsInHeader pages format skb place) ∧
      (start.allocs = [] → EndsInHeader pages format skb place → leaked ≠ []) := by
  induction fuel generalizing list pool place with
  | zero => omega
  | succ fuel ih =>
    unfold deaggregateFrom
    by_cases lt : place < skb.len
    · rw [if_pos lt]
      obtain ⟨out, ran, round⟩ := @Kept.deaggregateOne pages format skb start pool
        (list.map slip ++ held) sent list place fuel kept (by omega)
      rw [ran]
      cases round with
      | stops after still seen =>
        refine ⟨list, after, [], rfl, still, absurd rfl, fun none ends => ?_⟩
        obtain ⟨noFrame, notLast⟩ := seen none
        cases ends with
        | here last => exact absurd last notLast
        | later frame behind =>
          rw [noFrame] at frame
          cases frame
      | frame size desc after found positive whole still =>
        have mem : Kept start after ((list ++ [desc]).map slip ++ held) sent := by
          rw [map_append, append_assoc]
          exact still.perm perm_middle.symm
        obtain ⟨taken, later, leaked, looped, kept, loses, lost⟩ :=
          @ih after (list ++ [desc]) (place + size) mem (by omega)
        refine ⟨taken, later, leaked, looped, kept, fun lost => .later found (loses lost), ?_⟩
        intro none ends
        cases ends with
        | here last => exact absurd last whole
        | later frame behind =>
          rw [found] at frame
          cases frame
          exact lost none behind
      | loses slip after last still =>
        refine ⟨list, after, [slip], rfl, still.perm perm_middle.symm, fun _ => .here last, ?_⟩
        exact fun _ _ absent => by cases absent
    · rw [if_neg lt]
      exact ⟨list, pool, [], rfl, kept, absurd rfl, fun _ ends => absurd ends.inside lt⟩

theorem Owns.descriptors (owns : Owns start (list.map RmnetFragDescriptor.slip ++ held) ingress) :
    Owns start held (list.foldl (Rmnet.ingressOne pages port) ingress) := by
  induction list generalizing ingress with
  | nil => exact owns
  | cons desc later ih => exact ih owns.ingressOne

theorem Owns.ingressSkb (owns : Owns start held ingress) (enough : skb.len + skb.frags.length + 1 < fuel) :
    ∃ after leaked, Rmnet.ingressSkb pages port fuel ingress skb = some after ∧
      Owns start (leaked ++ held) after ∧ (leaked ≠ [] → EndsInHeader pages port.dataFormat skb 0) ∧
      (start.allocs = [] → EndsInHeader pages port.dataFormat skb 0 → leaked ≠ []) := by
  obtain ⟨list, pool, leaked, ran, kept, loses, lost⟩ := @Kept.deaggregateFrom pages port.dataFormat
    skb start ingress.pool (held ++ ingress.perf.map RmnetFragDescriptor.slip)
    (ingress.delivered.map Prod.fst) [] 0 fuel owns enough
  refine ⟨list.foldl (Rmnet.ingressOne pages port) { ingress with pool }, leaked, ?_, ?_, loses, lost⟩
  · unfold Rmnet.ingressSkb rmnetFragDeaggregate
    rw [ran]
  · apply Owns.descriptors
    rw [← append_assoc leaked, ← append_assoc] at kept
    exact kept

theorem Owns.ingressChain (owns : Owns start held ingress)
    (enough : ∀ one ∈ chain, one.len + one.frags.length + 1 < fuel) :
    ∃ after leaked, ingressChain pages port fuel chain ingress = some after ∧ Owns start (leaked ++ held) after ∧
      (leaked ≠ [] → ∃ one ∈ chain, EndsInHeader pages port.dataFormat one 0) ∧
      (start.allocs = [] → (∃ one ∈ chain, EndsInHeader pages port.dataFormat one 0) → leaked ≠ []) := by
  induction chain generalizing ingress held with
  | nil =>
    refine ⟨ingress, [], rfl, owns, absurd rfl, ?_⟩
    rintro _ ⟨one, absent, _⟩
    cases absent
  | cons skb later ih =>
    obtain ⟨reached, first, ran, kept, loses, lost⟩ :=
      @Owns.ingressSkb pages skb start held fuel port ingress owns (enough skb (mem_cons_self ..))
    obtain ⟨after, rest, followed, keptRest, losesRest, lostRest⟩ :=
      ih kept fun one mem => enough one (mem_cons_of_mem _ mem)
    refine ⟨after, rest ++ first, ?_, by rw [append_assoc]; exact keptRest, ?_, ?_⟩
    · unfold ingressChain
      rw [ran]
      exact followed
    · intro some
      by_cases none : rest = []
      · rw [none] at some
        exact ⟨skb, mem_cons_self .., loses some⟩
      · obtain ⟨one, mem, ends⟩ := losesRest none
        exact ⟨one, mem_cons_of_mem _ mem, ends⟩
    · rintro none ⟨one, mem, ends⟩ empty
      obtain ⟨noRest, noFirst⟩ := append_eq_nil_iff.mp empty
      rcases mem_cons.mp mem with rfl | mem
      · exact lost none ends noFirst
      · exact lostRest none ⟨one, mem, ends⟩ noRest

end KernelModules.Rmnet
