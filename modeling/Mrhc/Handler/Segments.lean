import Mrhc.Client.Recut
import Mrhc.Handler.Indifference

/-!
# Streams in segments

The network delivers the stream of a server in segments that nobody chooses. Wherever it cuts
between the pixels, everybody is answered the same.
-/

namespace Mrhc

instance : Indistinct Session.Recut where
  refl := fun s => (Session.SameView.refl s).recut
  jpegBuf := fun _ _ ⟨_, _, _, _, h⟩ => h.jpegBuf
  operate := operate_respects
  capture := capture_recut

/-- This login, to a server that has this dialogue, goes on with updates as they are cut, and then
with any bytes. -/
def Visit.receiving (login : Visit) (d : ServerSide) (version : Bytes) (updates : List CutUpdate)
    (rest : Bytes) (later : List Transfer) : Visit :=
  { login with
    server := d.streaming version (updates.flatMap (·.update.bytes) ++ rest)
      (Socket.transfers (updates.flatMap CutUpdate.pieces) ++ later) }

private theorem handleVisit_receiving_unlogged {lib : Platform} {version : Bytes}
    (hversion : version ∈ listingVersions) (d : ServerSide) {login : Visit}
    {credentials : Credentials} (hlogin : login.request.LogsIn lib credentials)
    (hlogs : ¬login.residue.LogsVersion) (updates : List CutUpdate) (rest : Bytes)
    (later : List Transfer) :
    handleVisit lib none (login.receiving d version updates rest later) =
      (⟨none, Response.empty,
        [.created credentials, .called .initializeClient, .called .authenticate]⟩, none) := by
  let v := login.receiving d version updates rest later
  let s := (Instance.new credentials v).session
  have hnamed : ¬s.client.LogsVersion := hlogs
  obtain ⟨t, hauthenticate⟩ := authenticate_streaming_unlogged (s := s) hversion d rfl hnamed
  have hconnect : initializeClient.run s = .ok true s := rfl
  exact handleVisit_unauthenticated hlogin.1 hlogin.2 hconnect hauthenticate

/-- **Segments make no difference.** However the updates after an accepted login are cut between
their pixels, all requests of all runs are answered the same. -/
theorem serve_segmentation {lib : Platform} {before : List Visit}
    (hbefore : stateAfter (handleVisit lib) none before = some none) {version : Bytes}
    (hversion : version ∈ listingVersions) (d : ServerSide) (haccepts : d.result = 0)
    {login : Visit} {credentials : Credentials} (hlogin : login.request.LogsIn lib credentials)
    (hhost : login.request.hostname ≠ none) {updates updates' : List CutUpdate}
    (hsame : updates'.map CutUpdate.update = updates.map CutUpdate.update) (rest : Bytes)
    (later : List Transfer) (visits : List Visit) :
    (serve lib (before ++ login.receiving d version updates rest later :: visits)).map
        Entry.output =
      (serve lib (before ++ login.receiving d version updates' rest later :: visits)).map
        Entry.output := by
  rw [serve, serve, runFrom_append hbefore, runFrom_append hbefore, List.map_append,
    List.map_append]
  refine congrArg (_ ++ ·) ?_
  by_cases hlogs : login.residue.LogsVersion
  · let opened := fun updates : List CutUpdate =>
      (Instance.new credentials (login.receiving d version updates rest later)).session
    have hrun := fun updates =>
      spinProgram_streaming (s := opened updates) hversion d rfl hlogs rfl haccepts
    obtain ⟨client, page, hclient, hpage, hvisit⟩ :=
      handleVisit_opened (v := login.receiving d version updates rest later) hlogin.1 hlogin.2
        hhost (hrun updates)
    obtain ⟨client', page', hclient', hpage', hvisit'⟩ :=
      handleVisit_opened (v := login.receiving d version updates' rest later) hlogin.1 hlogin.2
        hhost (hrun updates')
    have hinput : updates'.flatMap (·.update.bytes) = updates.flatMap (·.update.bytes) := by
      rw [← List.flatMap_map, hsame, List.flatMap_map]
    obtain rfl : page = page' := Except.ok.inj (hpage.symm.trans hpage')
    have halike : client.Alike Session.Recut client' := by
      rw [Instance.Alike, hclient, hclient']
      exact ⟨updates, updates', rest, later, hsame, .inr rfl, rfl, congrArg (· ++ rest) hinput,
        rfl, rfl, rfl, rfl, rfl, rfl, rfl⟩
    rw [runFrom_cons hvisit, runFrom_cons hvisit', List.map_cons, List.map_cons,
      runFrom_alike lib halike]
  · have hstops := handleVisit_receiving_unlogged hversion d hlogin hlogs
    rw [runFrom_last (hstops updates rest later), runFrom_last (hstops updates' rest later)]
    rfl

private theorem pixelPair_length :
    [(1 : UInt32), 2].length = (2 : UInt16).toNat * (1 : UInt16).toNat := rfl

def pixelPair : RawRectangle := ⟨0, 0, 2, 1, [1, 2], pixelPair_length⟩

private theorem pixelPair_small : pixelPair.toRectangle.area < 2 ^ 27 := by decide

private theorem together_nonempty : ∀ piece ∈ [wordBytes [1, 2]], piece ≠ [] := by decide

private theorem together_fits : ∀ piece ∈ [wordBytes [1, 2]], piece.length ≤ bufSize := by decide

private theorem together_joined : [wordBytes [1, 2]].flatten = wordBytes pixelPair.pixels := rfl

def togetherCut : Socket.Cutting (wordBytes pixelPair.pixels) bufSize :=
  ⟨[wordBytes [1, 2]], together_joined, together_nonempty, together_fits⟩

private theorem together_aligned : PixelAligned togetherCut := by decide

private theorem apart_joined :
    [wordBytes [1], wordBytes [2]].flatten = wordBytes pixelPair.pixels := rfl

private theorem apart_nonempty : ∀ piece ∈ [wordBytes [1], wordBytes [2]], piece ≠ [] := by decide

private theorem apart_fits : ∀ piece ∈ [wordBytes [1], wordBytes [2]], piece.length ≤ bufSize := by
  decide

def apartCut : Socket.Cutting (wordBytes pixelPair.pixels) bufSize :=
  ⟨[wordBytes [1], wordBytes [2]], apart_joined, apart_nonempty, apart_fits⟩

private theorem apart_aligned : PixelAligned apartCut := by decide

def togetherRectangle : CutRectangle :=
  ⟨pixelPair, pixelPair_small, togetherCut, together_aligned⟩

def apartRectangle : CutRectangle := ⟨pixelPair, pixelPair_small, apartCut, apart_aligned⟩

private theorem single_count (r : CutRectangle) : [r].length < 2 ^ 16 := by
  rw [List.length_singleton]
  decide

def singleUpdate (r : CutRectangle) : CutUpdate := ⟨0, [r], single_count r⟩

def testLogin : Visit := ⟨pageRequest (some testHeader), Socket.delivering [], .blank⟩

theorem serve_segmentation_pixels :
    (serve bluePlatform ([] ++ testLogin.receiving twoPixelServer rfbProtocolVersion38
        [singleUpdate togetherRectangle] [] [] :: [actionVisit .watch])).map Entry.output =
      (serve bluePlatform ([] ++ testLogin.receiving twoPixelServer rfbProtocolVersion38
        [singleUpdate apartRectangle] [] [] :: [actionVisit .watch])).map Entry.output := by
  have hcredentials : testLogin.request.credentials bluePlatform = some testCredentials := by
    decide +kernel
  have hsame : [singleUpdate apartRectangle].map CutUpdate.update =
      [singleUpdate togetherRectangle].map CutUpdate.update := rfl
  exact @serve_segmentation bluePlatform [] rfl rfbProtocolVersion38 (by decide) twoPixelServer rfl
    testLogin testCredentials ⟨by decide, hcredentials⟩ (by decide) _ _ hsame [] []
    [actionVisit .watch]

end Mrhc
