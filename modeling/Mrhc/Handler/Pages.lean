import Mrhc.Handler.Request

/-!
# Pages

The texts that the handler answers with. A request without a host name has a null `hostname`, from
which no string can be built.
-/

namespace Mrhc

/-- The host name and the path of a request as strings. -/
def Request.location (r : Request) : Except Stop (Bytes × Bytes) :=
  match r.hostname with
  | some hostname => .ok (cString hostname, cString r.unparsedUri)
  | none => .error .logicError

def mrhcHtml (r : Request) (client : VncClient) : Except Stop Bytes := do
  let (hostname, path) ← r.location
  let width := ascii (toString client.width.toNat)
  let height := ascii (toString client.height.toNat)
  return List.flatten [
    ascii "<html>                                                                  ",
    ascii "  <head>                                                                ",
    ascii "    <link rel='shortcut icon' ",
    ascii "href='https://user-images.githubusercontent.com/562105/",
    ascii "83327371-2c590300-a2b6-11ea-90cf-07a5a586f5ae.png'> ",
    ascii "  </head>                                                               ",
    ascii "  <body>                                                                ",
    ascii "    <form action='", path, ascii "' method='post'>                          ",
    ascii "      <input type='hidden' name='logout' value='1'>                     ",
    ascii "      <input type='submit' value='logout'>                              ",
    ascii "    </form>                                                             ",
    ascii "    <image id='mrhc' src='http://", hostname, path, ascii "' width='", width,
    ascii "' height='", height, ascii "'> ",
    ascii "  </body>                                                               ",
    ascii "  <script src='https://ajax.googleapis.com/ajax/libs/jquery/3.4.1/jquery.min.js'>",
    ascii "</script> ",
    ascii "  <script type=text/javascript>                                         ",
    ascii "    let fetchLatestImage = () => \x7b                                      ",
    ascii "      $('#mrhc').attr('src', 'http://", hostname, path, ascii "?t=' + Date.now()); ",
    ascii "    \x7d;                                                                  ",
    ascii "    let timer = setInterval(fetchLatestImage, 5000);                    ",
    ascii "    $('#mrhc').on('click', (e) => \x7b                                     ",
    ascii "      $('#mrhc').attr('src', 'http://", hostname, path,
    ascii "?x=' + e.offsetX + '&y=' + e.offsetY + '&b=0'); ",
    ascii "      clearInterval(timer);                                             ",
    ascii "      timer = setInterval(fetchLatestImage, 5000);                      ",
    ascii "    \x7d).on('contextmenu', (e) => \x7b                                       ",
    ascii "      $('#mrhc').attr('src', 'http://", hostname, path,
    ascii "?x=' + e.offsetX + '&y=' + e.offsetY + '&b=2'); ",
    ascii "      clearInterval(timer);                                             ",
    ascii "      timer = setInterval(fetchLatestImage, 5000);                      ",
    ascii "      return false;                                                     ",
    ascii "    \x7d);                                                                 ",
    ascii "    $(window).on('keydown', (e) => \x7b                                    ",
    ascii "      $.ajax(                                                           ",
    ascii "        \x7b                                                               ",
    ascii "          type: 'GET',                                                  ",
    ascii "          url: 'http://", hostname, path, ascii "?k=' + e.key,             ",
    ascii "        \x7d                                                               ",
    ascii "      );                                                                ",
    ascii "    \x7d);                                                                 ",
    ascii "  </script>                                                             ",
    ascii "</html>"]

def mrhcError (r : Request) (message : Bytes) : Except Stop Bytes := do
  let (_, path) ← r.location
  return List.flatten [
    ascii "<html>                                                                  ",
    ascii "  <body>                                                                ",
    ascii "    <form action='", path, ascii "' method='post'>                          ",
    ascii "      <input type='hidden' name='logout' value='1'>                     ",
    ascii "      <input type='submit' value='retry'>                               ",
    ascii "    </form>                                                             ",
    ascii "    <p>", message, ascii "</p>                                              ",
    ascii "  </body>                                                               ",
    ascii "</html>"]

theorem flatten_slice (l : List Bytes) (n k : Nat) :
    ((l.drop n).take k).flatten <:+: l.flatten := by
  have hsplit : l = l.take n ++ ((l.drop n).take k ++ (l.drop n).drop k) := by
    rw [List.take_append_drop, List.take_append_drop]
  conv_rhs => rw [hsplit, List.flatten_append, List.flatten_append]
  exact List.infix_append' _ _ _

end Mrhc
