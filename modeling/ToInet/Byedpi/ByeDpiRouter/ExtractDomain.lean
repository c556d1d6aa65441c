import ToInet.Byedpi.ByeDpiProxyPreferences
import ToInet.Byedpi.ByeDpiRouter
import ToInet.Lib.Charset

-- ByeDpiRouter.extractDomain: the host that the first bytes of a connection name, in HTTP or in TLS.
namespace ToInet.Byedpi.ByeDpiRouter

open ToInet.Lib

-- How the platform decodes bytes, and what two characters that differ in case only have in common:
-- below 128 just what they have in ASCII, and a space is alone.
structure Texts where
  charset : Charset
  fold : Char → Char
  fold_ascii : ∀ a b : Char, a.toNat < 128 → b.toNat < 128 → (fold a = fold b ↔ a.toLower = b.toLower)
  fold_space : ∀ c, fold c = fold ' ' → c = ' '

section

variable (texts : Texts)

def httpMethods : List String := ["GET ", "POST ", "CONNECT ", "PUT ", "HEAD ", "OPTIONS "]

def isHttp (firstChunk : Bytes) (length : Nat) : Bool :=
  let method := texts.charset.decode (firstChunk.take (min 8 length))
  httpMethods.any fun start => start.toList.isPrefixOf method

def startsWithHost (line : List Char) : Bool := ("Host: ".toList.map texts.fold).isPrefixOf (line.map texts.fold)

-- What the line of the host is taken for, behind its first six characters.
def hostOf (value : List Char) : List Char := (trim value).takeWhile (· ≠ ':')

def httpHost (httpData : List Char) : Option (List Char) :=
  ((lines '\r' '\n' httpData).find? (startsWithHost texts)).map fun hostLine => hostOf (hostLine.drop 6)

end

def byte (firstChunk : Bytes) (i : Nat) : Nat := (firstChunk.getD i 0).toNat

def word (firstChunk : Bytes) (i : Nat) : Nat := byte firstChunk i <<< 8 ||| byte firstChunk (i + 1)

-- Where the extensions begin and end, if the lengths in front of them stay within what has been read.
def extensionsIn (firstChunk : Bytes) (length : Nat) : Option (Nat × Nat) :=
  let offset := 43
  if offset + 1 > length then none
  else
    let sessionIdLen := byte firstChunk offset
    let offset := offset + (1 + sessionIdLen)
    if offset + 2 > length then none
    else
      let cipherSuitesLen := word firstChunk offset
      let offset := offset + (2 + cipherSuitesLen)
      if offset + 1 > length then none
      else
        let compMethodsLen := byte firstChunk offset
        let offset := offset + (1 + compMethodsLen)
        if offset + 2 > length then none
        else
          let extensionsLen := word firstChunk offset
          let offset := offset + 2
          some (offset, min (offset + extensionsLen) length)

-- The name in an extension of type 0 whose data begin at offset.
def serverName (firstChunk : Bytes) (endOffset offset extLen : Nat) : Option Bytes :=
  if offset + extLen ≤ endOffset then
    let sniOffset := offset + 2
    if sniOffset + 1 ≤ endOffset then
      let nameType := byte firstChunk sniOffset
      if nameType = 0 then
        let sniOffset := sniOffset + 1
        if sniOffset + 2 ≤ endOffset then
          let nameLen := word firstChunk sniOffset
          let sniOffset := sniOffset + 2
          if sniOffset + nameLen ≤ endOffset then some ((firstChunk.drop sniOffset).take nameLen) else none
        else none
      else none
    else none
  else none

-- The loop over the extensions. Each round moves the offset by at least four, so the fuel is not
-- used up.
def findServerName (firstChunk : Bytes) (endOffset : Nat) : Nat → Nat → Option Bytes
  | 0, _ => none
  | fuel + 1, offset =>
      if offset + 4 ≤ endOffset then
        let extType := word firstChunk offset
        let extLen := word firstChunk (offset + 2)
        let offset := offset + 4
        match if extType = 0 then serverName firstChunk endOffset offset extLen else none with
        | some name => some name
        | none => findServerName firstChunk endOffset fuel (offset + extLen)
      else none

def tlsServerName (firstChunk : Bytes) (length : Nat) : Option Bytes :=
  (extensionsIn firstChunk length).bind fun (offset, endOffset) =>
    findServerName firstChunk endOffset endOffset offset

def isTls (firstChunk : Bytes) : Bool :=
  byte firstChunk 0 = 0x16 ∧ byte firstChunk 1 = 0x03 ∧ byte firstChunk 5 = 0x01

def extractDomain (texts : Texts) (firstChunk : Bytes) (length : Nat) : Option String :=
  if length < 16 then none
  else if isHttp texts firstChunk length then
    (httpHost texts (texts.charset.decode (firstChunk.take length))).map String.ofList
  else if isTls firstChunk then
    (tlsServerName firstChunk length).map fun name => String.ofList (texts.charset.decode name)
  else none

end ToInet.Byedpi.ByeDpiRouter
