import Russignol.Host.SingleReader

/-!
# Where the writes after a flash land

The boot files, the formats and the key files go where the kernel's view has the partitions, and the
card is told by its own table. `flash_lands_iff`: a flash that returns success has written in place
exactly where the last re-read was done, or the view that the kernel was left with happens to agree
with the new table. A process that is not root never re-reads.
-/

namespace Russignol.Host

/-- The extents of the writes of a kind. -/
def Target.written (s : Target) (kind : Written) : List Extent :=
  (s.writes.filter (·.1 = kind)).map Prod.snd

/-- The boot files are in the boot partition of the card's table, and nothing is in its root file
system. -/
structure Target.Lands (s : Target) : Prop where
  boot : s.written .bootFile ≠ [] ∧
    ∀ e ∈ s.written .bootFile, ∃ b, s.table.node 1 = some b ∧ e.Within b
  spared : ∀ w ∈ s.writes, ∀ rootfs, s.table.node 2 = some rootfs → w.2.Clear rootfs

/-- And the partition that was formatted and holds the keys is that of the card's table. -/
structure Target.KeyedLands (s : Target) : Prop extends s.Lands where
  keys : ∃ e, s.table.node 3 = some e ∧ s.written (.format 3) = [e] ∧ s.written .keyFiles = [e]

/-- A view has the boot partition where a table has it. -/
def BootInPlace (view table : Table) : Prop :=
  ∃ e b, view.node 1 = some e ∧ table.node 1 = some b ∧ e.start = b.start

/-- And the key partition, and the data partition clear of the root file system. -/
structure KeyedInPlace (view table : Table) : Prop where
  boot : BootInPlace view table
  keys : view.node 3 = table.node 3
  data : ∀ e rootfs, view.node 4 = some e → table.node 2 = some rootfs → e.Clear rootfs

/-! ## What the steps do -/

/-- What a node mounts to. -/
def Mounted (view : Table) (volumes : Nat → Option Nat) (n : Nat) (m : Extent) : Prop :=
  ∃ e v, view.node n = some e ∧ volumes e.start = some v ∧ 0 < min v e.size ∧
    m = ⟨e.start, min v e.size⟩

/-- A node mounts to one extent. -/
theorem Mounted.unique {view : Table} {volumes : Nat → Option Nat} {n : Nat} {m m' : Extent}
    (h : Mounted view volumes n m) (h' : Mounted view volumes n m') : m = m' := by
  obtain ⟨e, v, he, hv, -, rfl⟩ := h
  obtain ⟨e', v', he', hv', -, rfl⟩ := h'
  rw [he] at he'
  cases he'
  rw [hv] at hv'
  cases hv'
  rfl

/-- A value that is there. -/
theorem orError_eq_ok {α : Type} {text : String} {o : Option α} {a : α}
    (h : orError text o = .ok a) : o = some a := by
  cases o with
  | none => cases h
  | some b => rw [Except.ok.inj h]

theorem mountPartition_eq_ok {io : FlashIo} {call : FlashCall} {text : String} {n : Nat}
    {s : Target} {m : Extent} (h : mountPartition io call text n s = .ok m) :
    Mounted s.view s.volumes n m := by
  obtain ⟨_, -, h⟩ := bind_eq_ok h
  obtain ⟨e, he, h⟩ := bind_eq_ok h
  obtain ⟨v, hv, h⟩ := bind_eq_ok h
  split at h
  · next hpos => exact ⟨e, v, orError_eq_ok he, orError_eq_ok hv, hpos, (Except.ok.inj h).symm⟩
  · cases h

theorem writeMounted_eq_ok {io : FlashIo} {call : FlashCall} {text : String} {kind : Written}
    {e : Extent} {s s' : Target} (h : writeMounted io call text kind e s = .ok s') :
    s' = { s with writes := s.writes ++ [(kind, e)] } := by
  obtain ⟨_, -, h⟩ := bind_eq_ok h
  exact (Except.ok.inj h).symm

/-- The configuration is written where the first node mounts to. -/
theorem writeConfigFile_eq_ok {io : FlashIo} {s s' : Target} (h : writeConfigFile io s = .ok s') :
    ∃ m, Mounted s.view s.volumes 1 m ∧
      s' = { s with writes := s.writes ++ [(.bootFile, m)] } := by
  obtain ⟨m, hm, h⟩ := bind_eq_ok h
  exact ⟨m, mountPartition_eq_ok hm, writeMounted_eq_ok h⟩

/-- So is the manifest. -/
theorem writeFlashManifest_eq_ok {io : FlashIo} {s s' : Target}
    (h : writeFlashManifest io s = .ok s') :
    ∃ m, Mounted s.view s.volumes 1 m ∧
      s' = { s with writes := s.writes ++ [(.bootFile, m)] } := by
  obtain ⟨m, hm, h⟩ := bind_eq_ok h
  exact ⟨m, mountPartition_eq_ok hm, writeMounted_eq_ok h⟩

theorem format_eq_ok {io : FlashIo} {call : FlashCall} {text : String} {n : Nat} {e : Extent}
    {s s' : Target} (h : format io call text n e s = .ok s') :
    s' = { s with
      volumes := Function.update s.volumes e.start (some e.size)
      writes := s.writes ++ [(.format n, e)] } := by
  obtain ⟨_, -, h⟩ := bind_eq_ok h
  exact (Except.ok.inj h).symm

/-- A re-read brings the view up to date where it is done. -/
theorem rereadPartitionTable_eq (root : Bool) (r : Reread) (s : Target) :
    ∃ verdict, rereadPartitionTable root r s =
      ({ s with view := if r.done root then s.table else s.view }, verdict) := by
  unfold rereadPartitionTable partitionRereadPlan Reread.done
  cases root with
  | false => exact ⟨.stale, rfl⟩
  | true =>
    simp only [if_true, Bool.true_and]
    cases r.partprobe || r.blockdev with
    | false => exact ⟨.stale, rfl⟩
    | true => exact ⟨.current, rfl⟩

/-- The file systems of a card after a flash. -/
def flashedVolumes (image : Image) (old : Nat → Option Nat) (o : Nat) : Option Nat :=
  if o < image.sectors then image.volumes o else old o

theorem flashImageToDevice_eq_ok {io : FlashIo} {image : Image} {s s' : Target}
    (h : flashImageToDevice io image s = .ok s') :
    s' = ⟨image.table, s.view, flashedVolumes image s.volumes, []⟩ := by
  obtain ⟨_, -, h⟩ := bind_eq_ok h
  exact (Except.ok.inj h).symm

/-! ## The boot partition -/

/-- **What begins in the boot partition of an image begins with it**: of what a node of a flashed
card mounts to, that it lies in the boot partition says that it begins there. -/
theorem within_boot_iff {image : Image} {old : Nat → Option Nat} {view : Table} {m : Extent}
    (h : Mounted view (flashedVolumes image old) 1 m) :
    (∃ b, image.table.node 1 = some b ∧ m.Within b) ↔ BootInPlace view image.table := by
  obtain ⟨e, v, he, hv, hpos, rfl⟩ := h
  constructor
  · rintro ⟨b, hb, hwithin⟩
    have hmem := Table.mem_of_node hb
    have hinside := image.inside b hmem
    unfold Extent.Within Extent.stop at hwithin
    unfold Extent.stop at hinside
    dsimp only at hwithin
    rw [flashedVolumes, if_pos (by omega)] at hv
    obtain ⟨f, hf, hstart, -⟩ := image.partitioned _ _ hv
    have hsame : f = b := by
      refine Table.eq_of_start hf hmem ?_ ?_
      · omega
      · unfold Extent.stop
        omega
    exact ⟨e, b, he, hb, by rw [← hstart, hsame]⟩
  · rintro ⟨e', b, he', hb, hstart⟩
    rw [he] at he'
    cases he'
    have hmem := Table.mem_of_node hb
    have hinside := image.inside b hmem
    have hb0 := Table.size_pos hb
    unfold Extent.stop at hinside
    rw [flashedVolumes, if_pos (by omega)] at hv
    obtain ⟨f, hf, hf0, hle⟩ := image.partitioned _ _ hv
    have hsame : f = b := by
      refine Table.eq_of_start hf hmem ?_ ?_
      · omega
      · unfold Extent.stop
        omega
    rw [hsame] at hle
    refine ⟨b, hb, ?_⟩
    unfold Extent.Within Extent.stop
    dsimp only
    omega

/-- What lies in the boot partition is clear of the root file system. -/
theorem clear_of_within_boot {table : Table} {b rootfs m : Extent} (hb : table.node 1 = some b)
    (hrootfs : table.node 2 = some rootfs) (h : m.Within b) : m.Clear rootfs :=
  h.clear (Table.clear hb hrootfs (by decide))

/-- A table agrees with itself, where it has the node. -/
theorem bootInPlace_self {table : Table} {e : Extent} (h : table.node 1 = some e) :
    BootInPlace table table := ⟨e, e, h, h, rfl⟩

/-- The writes of boot files alone. -/
theorem lands_iff_of_boot {image : Image} {old : Nat → Option Nat} {view : Table} {m : Extent}
    (h : Mounted view (flashedVolumes image old) 1 m) {s : Target}
    (htable : s.table = image.table) {n : Nat}
    (hwrites : s.writes = List.replicate (n + 1) (.bootFile, m)) :
    s.Lands ↔ BootInPlace view image.table := by
  have hwritten : s.written .bootFile = List.replicate (n + 1) m := by
    rw [Target.written, hwrites, List.filter_replicate]
    simp
  rw [← within_boot_iff h]
  constructor
  · intro hlands
    obtain ⟨b, hb, hwithin⟩ := hlands.boot.2 m (by rw [hwritten]; simp)
    exact ⟨b, by rw [← htable, hb], hwithin⟩
  · rintro ⟨b, hb, hwithin⟩
    rw [← htable] at hb
    refine ⟨⟨by rw [hwritten]; simp, fun e he => ?_⟩, fun w hw rootfs hrootfs => ?_⟩
    · rw [hwritten] at he
      rw [List.eq_of_mem_replicate he]
      exact ⟨b, hb, hwithin⟩
    · rw [hwrites] at hw
      rw [List.eq_of_mem_replicate hw]
      exact clear_of_within_boot hb hrootfs hwithin

/-! ## The normal flash -/

/-- What a normal flash that succeeds leaves. -/
theorem finishNormalFlash_eq_ok {io : FlashIo} {image : Image} {skipVerify : Bool}
    {chainInfo : Option ChainInfo} {s s' : Target} {verdict : HostPartitionView}
    (h : finishNormalFlash io image skipVerify chainInfo s = .ok (s', verdict)) :
    ∃ m n, s'.table = image.table ∧
      Mounted (if io.afterFlash.done io.root then image.table else s.view)
        (flashedVolumes image s.volumes) 1 m ∧
      s'.writes = List.replicate (n + 1) (.bootFile, m) := by
  obtain ⟨flashed, hflashed, h⟩ := bind_eq_ok h
  obtain ⟨_, -, h⟩ := bind_eq_ok h
  obtain ⟨view, hreread⟩ := rereadPartitionTable_eq io.root io.afterFlash flashed
  rw [hreread] at h
  obtain ⟨withManifest, hmanifest, h⟩ := bind_eq_ok h
  obtain ⟨final, hfinal, h⟩ := bind_eq_ok h
  cases h
  rw [flashImageToDevice_eq_ok hflashed] at hmanifest
  obtain ⟨m, hm, rfl⟩ := writeFlashManifest_eq_ok hmanifest
  cases chainInfo with
  | none =>
    cases hfinal
    exact ⟨m, 0, rfl, hm, rfl⟩
  | some chain =>
    obtain ⟨t, ht, hfinal⟩ := bind_eq_ok hfinal
    obtain ⟨_, -, hfinal⟩ := bind_eq_ok hfinal
    cases hfinal
    obtain ⟨m', hm', rfl⟩ := writeConfigFile_eq_ok ht
    rw [hm'.unique hm]
    exact ⟨m, 1, rfl, hm, rfl⟩

/-- Where a normal flash writes in place. -/
theorem finishNormalFlash_lands {io : FlashIo} {image : Image} {skipVerify : Bool}
    {chainInfo : Option ChainInfo} {s s' : Target} {verdict : HostPartitionView}
    (h : finishNormalFlash io image skipVerify chainInfo s = .ok (s', verdict)) :
    s'.Lands ↔ io.afterFlash.done io.root = true ∨ BootInPlace s.view image.table := by
  obtain ⟨m, n, htable, hm, hwrites⟩ := finishNormalFlash_eq_ok h
  rw [lands_iff_of_boot hm htable hwrites]
  cases hdone : io.afterFlash.done io.root with
  | false => simp
  | true =>
    rw [hdone] at hm
    obtain ⟨e, -, he, -⟩ := hm
    exact iff_of_true (bootInPlace_self he) (.inl rfl)

/-! ## The keyed flash -/

/-- The table of a card once the key and data partitions are appended to that of the image. -/
def appendedTable (image : Image) (diskSizeSectors : Nat) : Option Table :=
  (calculateRestorePartitionLayout image.table diskSizeSectors).toOption.bind fun layout =>
    image.table.append [layout.keys, layout.data]

/-- The partitions of the image keep their numbers, of which there are two at least. -/
theorem node_appendedTable {image : Image} {disk : Nat} {table : Table}
    (h : appendedTable image disk = some table) {n : Nat} (hn : n ≤ 2) :
    table.node n = image.table.node n := by
  obtain ⟨layout, hlayout, happend⟩ := Option.bind_eq_some_iff.1 h
  refine Table.node_append happend ?_
  unfold calculateRestorePartitionLayout at hlayout
  cases hp2 : image.table.node 2 with
  | none =>
    rw [hp2] at hlayout
    cases hlayout
  | some p2 =>
    have hlength := (List.getElem?_eq_some_iff.1 hp2).1
    omega

/-- The view that the kernel is left with. -/
def keyedView (io : FlashIo) (image : Image) (view table : Table) : Table :=
  if io.afterAppend.done io.root then table
  else if io.afterFlash.done io.root then image.table else view

/-- What a keyed flash that succeeds has done: the table is the appended one, the third and fourth
nodes of the view are formatted, the keys are in the third, and what the first mounts to has the
configuration and the manifest. -/
structure KeyedFlash (io : FlashIo) (image : Image) (s s' : Target) (p3 p4 m : Extent) : Prop where
  table : appendedTable image io.diskSizeSectors = some s'.table
  view : s'.view = keyedView io image s.view s'.table
  keys : s'.view.node 3 = some p3
  data : s'.view.node 4 = some p4
  boot : Mounted s'.view (flashedVolumes image s.volumes) 1 m
  writes : s'.writes =
    [(.format 3, p3), (.format 4, p4), (.keyFiles, p3), (.bootFile, m), (.bootFile, m)]

/-- What `createAndFormatPartitions` leaves. -/
theorem createAndFormatPartitions_eq_ok {io : FlashIo} {s s' : Target}
    (h : createAndFormatPartitions io s = .ok s') :
    ∃ layout table p3 p4,
      calculateRestorePartitionLayout s.table io.diskSizeSectors = .ok layout ∧
      s.table.append [layout.keys, layout.data] = some table ∧
      s' = ⟨table, if io.afterAppend.done io.root then table else s.view,
        Function.update (Function.update s.volumes p3.start (some p3.size)) p4.start (some p4.size),
        s.writes ++ [(.format 3, p3)] ++ [(.format 4, p4)]⟩ ∧
      s'.view.node 3 = some p3 ∧ s'.view.node 4 = some p4 := by
  obtain ⟨layout, hlayout, h⟩ := bind_eq_ok h
  obtain ⟨_, -, h⟩ := bind_eq_ok h
  obtain ⟨table, htable, h⟩ := bind_eq_ok h
  obtain ⟨view, hreread⟩ := rereadPartitionTable_eq io.root io.afterAppend { s with table }
  rw [hreread] at h
  obtain ⟨p3, hp3, h⟩ := bind_eq_ok h
  obtain ⟨p4, hp4, h⟩ := bind_eq_ok h
  obtain ⟨withKeys, hkeys, hdata⟩ := bind_eq_ok h
  rw [format_eq_ok hkeys] at hdata
  rw [format_eq_ok hdata]
  exact ⟨layout, table, p3, p4, hlayout, orError_eq_ok htable, rfl, orError_eq_ok hp3,
    orError_eq_ok hp4⟩

/-- What a node that was formatted mounts to is the node. -/
theorem Mounted.formatted {view : Table} {volumes : Nat → Option Nat} {n : Nat} {e m : Extent}
    (h : Mounted view volumes n m) (he : view.node n = some e)
    (hv : volumes e.start = some e.size) : m = e := by
  obtain ⟨e', v, he', hv', -, rfl⟩ := h
  rw [he] at he'
  cases he'
  rw [hv] at hv'
  cases hv'
  rw [Nat.min_self]

/-- What another node mounts to is not the format's. -/
theorem Mounted.of_update {view : Table} {volumes : Nat → Option Nat} {n k : Nat} {e m : Extent}
    {v : Option Nat} (h : Mounted view (Function.update volumes e.start v) n m)
    (he : view.node k = some e) (hne : n - 1 ≠ k - 1) : Mounted view volumes n m := by
  obtain ⟨f, w, hf, hw, hpos, rfl⟩ := h
  have hstart := (Table.clear hf he hne).start_ne (Table.size_pos hf) (Table.size_pos he)
  rw [Function.update_of_ne hstart] at hw
  exact ⟨f, w, hf, hw, hpos, rfl⟩

/-- What a keyed flash that succeeds has done. -/
theorem flashKeyed_eq_ok {io : FlashIo} {image : Image} {s s' : Target}
    (h : flashKeyed io image s = .ok s') : ∃ p3 p4 m, KeyedFlash io image s s' p3 p4 m := by
  obtain ⟨flashed, hflashed, h⟩ := bind_eq_ok h
  obtain ⟨view, hreread⟩ := rereadPartitionTable_eq io.root io.afterFlash flashed
  rw [hreread] at h
  obtain ⟨created, hcreated, h⟩ := bind_eq_ok h
  obtain ⟨backed, hbacked, h⟩ := bind_eq_ok h
  obtain ⟨final, hfinal, h⟩ := bind_eq_ok h
  obtain ⟨_, -, h⟩ := bind_eq_ok h
  obtain ⟨_, -, h⟩ := bind_eq_ok h
  cases h
  rw [flashImageToDevice_eq_ok hflashed] at hcreated
  obtain ⟨layout, table, p3, p4, hlayout, htable, rfl, hp3, hp4⟩ :=
    createAndFormatPartitions_eq_ok hcreated
  obtain ⟨mkeys, hmkeys, hbacked⟩ := bind_eq_ok hbacked
  obtain ⟨withKeys, hwithKeys, hbacked⟩ := bind_eq_ok hbacked
  have hmkeys := mountPartition_eq_ok hmkeys
  rw [writeMounted_eq_ok hwithKeys] at hbacked
  obtain ⟨m, hm, rfl⟩ := writeConfigFile_eq_ok hbacked
  obtain ⟨m', hm', rfl⟩ := writeFlashManifest_eq_ok hfinal
  have hsame := hm'.unique hm
  have hclear := (Table.clear hp3 hp4 (by decide)).start_ne (Table.size_pos hp3)
    (Table.size_pos hp4)
  have hkeys : mkeys = p3 := by
    refine hmkeys.formatted hp3 ?_
    dsimp only
    rw [Function.update_of_ne hclear, Function.update_self]
  have hboot := (hm.of_update hp4 (by decide)).of_update hp3 (by decide)
  refine ⟨p3, p4, m, ?_, rfl, hp3, hp4, hboot, ?_⟩
  · rw [appendedTable, hlayout]
    exact htable
  · rw [hsame, hkeys]
    rfl

namespace KeyedFlash

variable {io : FlashIo} {image : Image} {s s' : Target} {p3 p4 m : Extent}

/-- The first two partitions are those of the image. -/
theorem node_table (h : KeyedFlash io image s s' p3 p4 m) {n : Nat} (hn : n ≤ 2) :
    s'.table.node n = image.table.node n := node_appendedTable h.table hn

/-- The boot partition is in place in the new table where it is in the image's. -/
theorem bootInPlace_iff (h : KeyedFlash io image s s' p3 p4 m) {view : Table} :
    BootInPlace view s'.table ↔ BootInPlace view image.table := by
  unfold BootInPlace
  rw [h.node_table (by decide)]

/-- **A keyed flash lands** where the view it was left with agrees with the card's table. -/
theorem lands_iff (h : KeyedFlash io image s s' p3 p4 m) :
    s'.KeyedLands ↔ KeyedInPlace s'.view s'.table := by
  have hboot := within_boot_iff h.boot
  rw [← h.bootInPlace_iff, ← h.node_table (by decide)] at hboot
  have hformat : s'.written (.format 3) = [p3] := by
    rw [Target.written, h.writes]
    rfl
  have hfiles : s'.written .bootFile = [m, m] := by
    rw [Target.written, h.writes]
    rfl
  constructor
  · intro hlands
    refine ⟨?_, ?_, fun e rootfs he hrootfs => ?_⟩
    · exact hboot.1 (hlands.boot.2 m (by rw [hfiles]; simp))
    · obtain ⟨e, he, hone, -⟩ := hlands.keys
      rw [hformat] at hone
      rw [h.keys, he, (List.cons.inj hone).1]
    · rw [h.data] at he
      cases he
      exact hlands.spared (.format 4, p4) (by rw [h.writes]; simp) rootfs hrootfs
  · intro hplace
    obtain ⟨b, hb, hwithin⟩ := hboot.2 hplace.boot
    have hkeys : s'.table.node 3 = some p3 := by rw [← hplace.keys, h.keys]
    refine ⟨⟨⟨by rw [hfiles]; simp, fun e he => ?_⟩, fun w hw rootfs hrootfs => ?_⟩, p3, hkeys,
      hformat, ?_⟩
    · rw [hfiles] at he
      have heq : e = m := by simpa using he
      rw [heq]
      exact ⟨b, hb, hwithin⟩
    · have hp3 := Table.clear hkeys hrootfs (by decide)
      have hp4 := hplace.data p4 rootfs h.data hrootfs
      have hm := clear_of_within_boot hb hrootfs hwithin
      rw [h.writes] at hw
      simp only [List.mem_cons, List.not_mem_nil, or_false] at hw
      rcases hw with rfl | rfl | rfl | rfl | rfl
      · exact hp3
      · exact hp4
      · exact hp3
      · exact hm
      · exact hm
    · rw [Target.written, h.writes]
      rfl

end KeyedFlash

/-- The last re-read is done, or the view before it agrees with the appended table. -/
def KeyedSettled (io : FlashIo) (image : Image) (view : Table) : Prop :=
  io.afterAppend.done io.root = true ∨
    ∀ table, appendedTable image io.diskSizeSectors = some table →
      KeyedInPlace (if io.afterFlash.done io.root then image.table else view) table

/-- Where a keyed flash writes in place. -/
theorem flashKeyed_lands {io : FlashIo} {image : Image} {s s' : Target}
    (h : flashKeyed io image s = .ok s') : s'.KeyedLands ↔ KeyedSettled io image s.view := by
  obtain ⟨p3, p4, m, hflash⟩ := flashKeyed_eq_ok h
  rw [hflash.lands_iff]
  have hview := hflash.view
  unfold keyedView at hview
  unfold KeyedSettled
  cases hdone : io.afterAppend.done io.root with
  | true =>
    rw [hdone, if_pos rfl] at hview
    obtain ⟨e, -, he, -⟩ := hflash.boot
    rw [hview] at he ⊢
    refine iff_of_true ⟨bootInPlace_self he, rfl, fun p4 rootfs hp4 hrootfs => ?_⟩ (.inl rfl)
    exact Table.clear hp4 hrootfs (by decide)
  | false =>
    rw [hdone, if_neg Bool.false_ne_true] at hview
    rw [hview]
    constructor
    · intro hplace
      refine .inr fun table htable => ?_
      rw [hflash.table] at htable
      cases htable
      exact hplace
    · rintro (hdone | hplace)
      · cases hdone
      · exact hplace _ hflash.table

/-! ## The three flashes -/

/-- The flash of a restore with two readers that flashes. -/
theorem runDualReaderRestore_eq_flashed [JsonText] {yes : Bool} {answer : Option Bool}
    {io : FlashIo} {image : Image} {backup : SourceBackup} {s : Target}
    {result : Except String Target}
    (h : runDualReaderRestore yes answer io image backup s = .flashed result) :
    result = flashKeyed io image s := by
  unfold runDualReaderRestore at h
  cases hkeys : extractNamedKeys backup.publicKeyHashs with
  | error e =>
    rw [hkeys] at h
    cases h
  | ok keys =>
    rw [hkeys] at h
    dsimp only at h
    rcases hconfirm : confirmRestoreOperation yes answer with e | _ | _
    · rw [hconfirm] at h
      cases h
    · rw [hconfirm] at h
      cases h
    · rw [hconfirm] at h
      exact (RestoreEnd.flashed.inj h).symm

/-- The flash of a restore with one reader that flashes. -/
theorem runSingleReaderRestore_eq_flashed [JsonText] {κ ρ : Type} {source : CardSource κ ρ}
    {targets : κ → Target} {job : FlashJob} {io : SingleReaderIo κ ρ} {card : κ}
    {result : Except String Target}
    (h : (runSingleReaderRestore source targets job io).ending = .flashed card result) :
    result = flashKeyed io.flash job.image (targets card) := by
  obtain ⟨original, backup, hcommitted, htarget⟩ := committed_of_flashed h
  rw [hcommitted.flashes htarget] at h
  exact (SingleReaderEnd.flashed.inj h).2.symm

/-- **Where the writes after a flash land**: each of the three flashes, when it returns success, has
written in place exactly where its last re-read is done, or the view that the kernel is left with
happens to have the partitions where the new table has them. -/
theorem flash_lands_iff [JsonText] {κ ρ : Type} (io : FlashIo) (image : Image) (s : Target)
    (source : CardSource κ ρ) (targets : κ → Target) (job : FlashJob) (sio : SingleReaderIo κ ρ) :
    (∀ skipVerify chainInfo s' verdict,
      finishNormalFlash io image skipVerify chainInfo s = .ok (s', verdict) →
        (s'.Lands ↔ io.afterFlash.done io.root = true ∨ BootInPlace s.view image.table)) ∧
    (∀ yes answer backup s',
      runDualReaderRestore yes answer io image backup s = .flashed (.ok s') →
        (s'.KeyedLands ↔ KeyedSettled io image s.view)) ∧
    ∀ card s', (runSingleReaderRestore source targets job sio).ending = .flashed card (.ok s') →
      (s'.KeyedLands ↔ KeyedSettled sio.flash job.image (targets card).view) := by
  refine ⟨fun skipVerify chainInfo s' verdict h => ?_, fun yes answer backup s' h => ?_,
    fun card s' h => ?_⟩
  · exact finishNormalFlash_lands h
  · exact flashKeyed_lands (runDualReaderRestore_eq_flashed h).symm
  · exact flashKeyed_lands (runSingleReaderRestore_eq_flashed h).symm

section

attribute [local instance] plainJson

/-- An image whose root file system has grown, to where an older card has its keys. -/
def grownImage : Image where
  table := ⟨[⟨2048, 131072⟩, ⟨133120, 262144⟩], by decide, by decide⟩
  sectors := 395264
  volumes o := if o = 2048 then some 131072 else if o = 133120 then some 262144 else none
  inside := by decide
  partitioned o v h := by
    split at h
    · next heq =>
      cases h
      exact ⟨⟨2048, 131072⟩, by decide, heq.symm, by decide⟩
    · split at h
      · next heq =>
        cases h
        exact ⟨⟨133120, 262144⟩, by decide, heq.symm, by decide⟩
      · cases h

/-- The table of the older card, and the card. -/
def olderTable : Table :=
  ⟨[⟨2048, 131072⟩, ⟨133120, 131072⟩, ⟨294912, 131072⟩, ⟨425984, 524288⟩], by decide, by decide⟩

def olderCard : Target := ⟨olderTable, olderTable, fun _ => none, []⟩

/-- A flash all of whose calls succeed, by root or not. -/
def smoothFlash (root : Bool) : FlashIo :=
  ⟨root, ⟨true, true⟩, ⟨true, true⟩, 2000000, fun _ => true⟩

/-- A backup without keys. -/
def emptyBackup : SourceBackup := ⟨[], [], Crypto.asBytes "[]", none, none, none⟩

/-- The card whose backup it is, and another. -/
def emptySource : CardSource Bool Unit where
  read _ _ := .ok emptyBackup
  identity _ card := if card then some "a1b2" else none

def swappedIo (root : Bool) : SingleReaderIo Bool Unit where
  first := true
  denied := none
  read := ()
  retries := []
  network := none
  sourceProbe := ⟨true, true⟩
  swaps := [(false, ⟨true, true⟩)]
  confirmed := none
  flash := smoothFlash root

def grownJob : FlashJob := ⟨grownImage, true, mainnetChain 1⟩

/-- By root, the three flashes of the older card land. -/
theorem flash_lands_iff_root :
    (∃ s' verdict, finishNormalFlash (smoothFlash true) grownImage false (some (mainnetChain 1))
      olderCard = .ok (s', verdict) ∧ s'.Lands) ∧
    (∃ s', runDualReaderRestore true none (smoothFlash true) grownImage emptyBackup olderCard =
      .flashed (.ok s') ∧ s'.KeyedLands) ∧
    ∃ card s', (runSingleReaderRestore emptySource (fun _ => olderCard) grownJob
      (swappedIo true)).ending = .flashed card (.ok s') ∧ s'.KeyedLands := by
  obtain ⟨hnormal, hdual, hsingle⟩ := flash_lands_iff (smoothFlash true) grownImage olderCard
    emptySource (fun _ => olderCard) grownJob (swappedIo true)
  refine ⟨⟨_, _, rfl, ?_⟩, ⟨_, rfl, ?_⟩, false, _, rfl, ?_⟩
  · exact (hnormal false (some (mainnetChain 1)) _ _ rfl).2 (.inl rfl)
  · exact (hdual true none emptyBackup _ rfl).2 (.inl rfl)
  · exact (hsingle false _ rfl).2 (.inl rfl)

/-- **The keys land in the root file system**: not by root, the older card is formatted and written
where it had its keys, and success is returned. -/
theorem keys_in_rootfs : ¬∀ [JsonText] (κ ρ : Type) (io : FlashIo) (image : Image) (s : Target)
    (source : CardSource κ ρ) (targets : κ → Target) (job : FlashJob)
    (sio : SingleReaderIo κ ρ),
    (∀ skipVerify chainInfo s' verdict,
      finishNormalFlash io image skipVerify chainInfo s = .ok (s', verdict) → s'.Lands) ∧
    (∀ yes answer backup s',
      runDualReaderRestore yes answer io image backup s = .flashed (.ok s') → s'.KeyedLands) ∧
    ∀ card s', (runSingleReaderRestore source targets job sio).ending = .flashed card (.ok s') →
      s'.KeyedLands := by
  intro hall
  have hdual := (hall Bool Unit (smoothFlash false) grownImage olderCard emptySource
    (fun _ => olderCard) grownJob (swappedIo false)).2.1 true none emptyBackup _ rfl
  have hclear := hdual.spared (.keyFiles, ⟨294912, 131072⟩) (by decide +kernel)
    ⟨133120, 262144⟩ rfl
  exact absurd hclear (by decide)

end

end Russignol.Host
