import ApiGateway.Bytes

/-!
# Media types

The media types that the gateway chooses by itself, the test for JSON, and the
guess from the name of a file.

Main definitions:

- `MediaType.isJson`: whether a media type announces JSON.
- `MediaType.withCharset`: the header value of a media type.
- `MediaType.ofFileName`: the media type of a file by its extension.
-/

namespace ApiGateway
namespace MediaType

/-- The media type of JSON. -/
def json : Bytes :=
  Bytes.ofString "application/json"

/-- The media type of text. -/
def text : Bytes :=
  Bytes.ofString "text/plain"

/-- The media type of uninterpreted bytes. -/
def binary : Bytes :=
  Bytes.ofString "application/octet-stream"

/-- The media type of problem details. -/
def problem : Bytes :=
  Bytes.ofString "application/problem+json"

/-- The part before the first semicolon, without blanks at its end. -/
def withoutParameters (mediaType : Bytes) : Bytes :=
  Bytes.trimEnd (· == 32) (Bytes.cut 59 mediaType).1

/-- Whether a media type is `application/json` or `application/` with a `+json` suffix. -/
def isJson (mediaType : Bytes) : Bool :=
  match Bytes.cut 47 (withoutParameters mediaType) with
  | (_, none) => false
  | (main, some sub) =>
    main == Bytes.ofString "application" &&
      (sub == Bytes.ofString "json" || (Bytes.ofString "+json").isSuffixOf sub)

/-- The header value of a media type: text without a charset is announced as UTF-8. -/
def withCharset (mediaType : Bytes) : Bytes :=
  if (Bytes.ofString "text/").isPrefixOf mediaType &&
      !Bytes.occursIn (Bytes.ofString "charset") mediaType then
    mediaType ++ Bytes.ofString "; charset=utf-8"
  else
    mediaType

/-- The file extensions whose media types are known. -/
def knownExtensions : List (Bytes × Bytes) := [
  (Bytes.ofString ".txt", Bytes.ofString "text/plain"),
  (Bytes.ofString ".html", Bytes.ofString "text/html"),
  (Bytes.ofString ".css", Bytes.ofString "text/css"),
  (Bytes.ofString ".js", Bytes.ofString "text/javascript"),
  (Bytes.ofString ".json", Bytes.ofString "application/json"),
  (Bytes.ofString ".png", Bytes.ofString "image/png"),
  (Bytes.ofString ".jpg", Bytes.ofString "image/jpeg"),
  (Bytes.ofString ".pdf", Bytes.ofString "application/pdf")]

/-- The media type of the first known extension that ends the name, bytes otherwise. -/
def ofFileName (name : Bytes) : Bytes :=
  ((knownExtensions.find? fun known => known.1.isSuffixOf name).map Prod.snd).getD binary

end MediaType
end ApiGateway
