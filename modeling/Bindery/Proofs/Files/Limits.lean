import Bindery.Proofs.Files.Keeping

namespace Bindery

/-! The limit on the text of a path. It only ever refuses: what is done under a limit is done in the
same way without one. -/

def Disk.unlimited (disk : Disk) : Disk :=
  { disk with pathLimit? := none }

section Admitted

variable {disk : Disk} {segments : List String}

theorem Disk.refused_ne_notFound {fault : FileFault}
    (hrefused : disk.accept segments = .error fault) : fault ≠ .notFound := by
  rw [Disk.accept] at hrefused
  split_ifs at hrefused <;> obtain rfl := Except.error.inj hrefused <;> simp

theorem Disk.provideFolder_of_refused {fault : FileFault}
    (hrefused : disk.accept segments = .error fault) :
    disk.provideFolder segments = .error fault := by
  simp only [provideFolder, makeFolder, target, follow, hrefused, error_bind, Except.map]

theorem Disk.accepted_of_provideFolder {result : Except FileFault Disk}
    (hprovided : disk.provideFolder segments = result)
    (hresult : ∀ fault, result = .error fault → fault = .notFound) :
    disk.accept segments = .ok () := by
  cases haccepted : disk.accept segments with
  | ok accepted => rfl
  | error fault =>
      have hrefused := hprovided.symm.trans (provideFolder_of_refused haccepted)
      exact absurd (hresult fault hrefused) (refused_ne_notFound haccepted)

variable (haccepted : disk.accept segments = .ok ())

include haccepted

theorem Disk.accept_unlimited : disk.unlimited.accept segments = .ok () := by
  have hnul := nulFree_of_accept haccepted
  exact accept_of_hasNul rfl hnul

theorem Disk.follow_unlimited : disk.unlimited.follow segments = disk.follow segments := by
  rw [follow, follow, haccepted, accept_unlimited haccepted]
  rfl

theorem Disk.target_unlimited : disk.unlimited.target segments = disk.target segments := by
  rw [target, target, haccepted, accept_unlimited haccepted]
  rfl

theorem Disk.makeFolder_unlimited :
    disk.unlimited.makeFolder segments = (disk.makeFolder segments).map unlimited := by
  rw [makeFolder, makeFolder, target_unlimited haccepted]
  cases disk.target segments with
  | error fault => rfl
  | ok target =>
      simp only [ok_bind]
      split
      · rfl
      · split_ifs <;> rfl

theorem Disk.provideFolder_unlimited :
    disk.unlimited.provideFolder segments = (disk.provideFolder segments).map unlimited := by
  rw [provideFolder, provideFolder, makeFolder_unlimited haccepted, follow_unlimited haccepted]
  cases disk.makeFolder segments with
  | ok later => rfl
  | error fault =>
      cases disk.follow segments with
      | error fault => rfl
      | ok trail =>
          have htree : disk.unlimited.tree = disk.tree := rfl
          simp only [Except.map, htree]
          cases disk.tree.atEnd trail <;> rfl

end Admitted

section Success

variable {disk later : Disk} {segments : List String} {path : String}

theorem Disk.provideFolder_unlimited_of_ok (hprovided : disk.provideFolder segments = .ok later) :
    disk.unlimited.provideFolder segments = .ok later.unlimited := by
  rw [provideFolder_unlimited (accepted_of_provideFolder hprovided (by simp)), hprovided]
  rfl

theorem Disk.makeFoldersBelow_unlimited {above : List String}
    (hmade : disk.makeFoldersBelow segments above = (.ok (), later)) :
    disk.unlimited.makeFoldersBelow segments above = (.ok (), later.unlimited) := by
  induction above generalizing segments later with
  | nil =>
      rw [makeFoldersBelow] at hmade ⊢
      split at hmade
      · rename_i made hprovided
        obtain rfl := (Prod.mk.inj hmade).2
        rw [provideFolder_unlimited_of_ok hprovided]
      · cases hmade
  | cons name above ih =>
      rw [makeFoldersBelow] at hmade ⊢
      split at hmade
      · rename_i made hprovided
        obtain rfl := (Prod.mk.inj hmade).2
        rw [provideFolder_unlimited_of_ok hprovided]
      · rename_i hmissing
        have haccepted := accepted_of_provideFolder hmissing (by simp)
        split at hmade
        · cases hmade
        · rename_i middle hparent
          split at hmade
          · rename_i made hprovided
            obtain rfl := (Prod.mk.inj hmade).2
            rw [provideFolder_unlimited haccepted, hmissing]
            simp only [Except.map, ih hparent, provideFolder_unlimited_of_ok hprovided]
          · cases hmade
      · cases hmade

theorem Disk.makeFolders_unlimited (hmade : disk.makeFolders path = (.ok (), later)) :
    disk.unlimited.makeFolders path = (.ok (), later.unlimited) := by
  rw [makeFolders] at hmade ⊢
  split_ifs at hmade ⊢
  · rw [(Prod.mk.inj hmade).2]
  · exact makeFoldersBelow_unlimited hmade

theorem Disk.accepted_of_write {content : ByteArray}
    (hwrite : disk.write path content = .ok later) :
    disk.accept (pathSegments path) = .ok () := by
  rw [write] at hwrite
  obtain ⟨target, htarget, -⟩ := bind_eq_ok.1 hwrite
  rw [Disk.target] at htarget
  obtain ⟨_, haccepted, -⟩ := bind_eq_ok.1 htarget
  exact haccepted

theorem Disk.write_unlimited {content : ByteArray} (hwrite : disk.write path content = .ok later) :
    disk.unlimited.write path content = .ok later.unlimited := by
  have hsame : disk.unlimited.write path content = (disk.write path content).map unlimited := by
    rw [write, write, target_unlimited (accepted_of_write hwrite)]
    cases disk.target (pathSegments path) with
    | error fault => rfl
    | ok target =>
        simp only [ok_bind]
        split
        · rfl
        · split_ifs
          · rfl
          · rfl
          · split <;> rfl
  rw [hsame, hwrite]
  rfl

theorem Disk.locate_unlimited {place : Place} (hplace : disk.locate path = .ok place) :
    disk.unlimited.locate path = .ok place := by
  have hpath : path ≠ "" := by
    rintro rfl
    contradiction
  rw [disk.locate_eq hpath] at hplace
  obtain ⟨_, haccepted, hfollow⟩ := bind_eq_ok.1 hplace
  rw [Disk.locate_eq _ hpath, accept_unlimited haccepted, ok_bind]
  exact hfollow

theorem Disk.read_unlimited {text : String} (hread : disk.read path = .ok text) :
    disk.unlimited.read path = .ok text := by
  rw [read_eq] at hread ⊢
  obtain ⟨place, hplace, hread⟩ := bind_eq_ok.1 hread
  rw [locate_unlimited hplace, ok_bind]
  exact hread

end Success

end Bindery
